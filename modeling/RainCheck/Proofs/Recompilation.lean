import RainCheck.Proofs.Compilation
import RainCheck.Proofs.Reentering

/-!
# Compiling a module again

A module that was compiled is compiled again, with all that is known about it by then.  The second compilation takes
the same steps as the first one (`Phase.run_again`):
* a declaration that was registered is registered already, and one whose name was taken is refused again;
* structs and types of functions are resolved or refused as they are on record;
* a function that was checked is left alone, and one that was refused is walked through again.

So it finds the same problems, unless a name was declared twice in a body (`compile_again`).
-/

namespace RainCheck

open Check RainCheck.Action

/-! ### Steps that are taken again -/

/-- Two compilations have found the same problems so far. -/
structure Progress.InStep (p q : Progress) : Prop where
  errors : q.errors = p.errors
  halted : q.halted = p.halted

namespace Progress.InStep

variable {p q : Progress}

private theorem succeed (h : p.InStep q) (s σ : Store) :
    InStep { p with store := s } { q with store := σ } := ⟨h.errors, h.halted⟩

private theorem refuse (h : p.InStep q) (options : Options) (d : Diagnostic) (s σ : Store) :
    (p.refuse options d s).InStep (q.refuse options d σ) := by
  refine ⟨?_, rfl⟩
  unfold Progress.refuse Progress.report
  rw [h.errors]
  split
  · exact h.errors
  · rfl

end Progress.InStep

namespace Phase

variable {phase : Phase} {options : Options}

/-- A phase ends in the same way at two declarations. -/
def EndsAs (phase : Phase) (options : Options) (d : Decl) (s : Store) (r : Except Stop Unit)
    (A : Store → Prop) : Prop :=
  ∃ d' s', phase.apply options d s = (d', ⟨r, s'⟩) ∧ A s'

theorem run_halted {items : List Item} {p : Progress} (h : p.halted = true) :
    phase.run options items p = .ok (items, p) := by
  induction items with
  | nil => rfl
  | cons item rest ih =>
    rw [run_cons, step_skip (.inl h), ok_bind]
    dsimp only
    rw [ih]
    rfl

section

/-
`T` leads from a store to later ones, `A S` holds of the stores of the second compilation if `S` is the last one of the
first, `F` holds of the problems that are found, and `R` of a declaration behind the phase in the first compilation and
its like in the second one.
-/
variable {T : Store → Store → Prop} {A : Store → Store → Prop} {F : Diagnostic → Prop} {R : Decl → Decl → Prop}
  {H : List Item → Progress → Prop}

/-- One step of a phase in two compilations. -/
private theorem step_again {item : Item} {rest : List Item} {p : Progress} (hrefl : ∀ s, T s s)
    (hskip : p.halted = true ∨ item.failed = true → H rest p)
    (hstep : p.halted = false → item.failed = false →
      phase.Leads options item.decl p.store
        (fun d s => T p.store s ∧ H rest { p with store := s } ∧
          ∀ S, T s S → ∀ e σ, R d e → A S σ → phase.EndsAs options e σ (.ok ()) (A S))
        (fun d why s => T p.store s ∧ H rest (p.refuse options why s) ∧
          ∀ S, T s S → F why → ∀ e σ, R d e → A S σ → phase.EndsAs options e σ (.error (.refused why)) (A S))) :
    ∃ item' p', phase.step options item p = .ok (item', p') ∧ H rest p' ∧ T p.store p'.store ∧
      ∀ S, T p'.store S → (∀ e ∈ p'.errors, F e) → ∀ again q, again.failed = item.failed → R item'.decl again.decl →
        p.InStep q → A S q.store → ∃ again' q', phase.step options again q = .ok (again', q') ∧
          again'.failed = item'.failed ∧ p'.InStep q' ∧ A S q'.store := by
  by_cases hskipped : p.halted = true ∨ item.failed = true
  · refine ⟨item, p, step_skip hskipped, hskip hskipped, hrefl _, fun S _ _ again q hagain _ hsync hA => ?_⟩
    exact ⟨again, q, step_skip (by rw [hsync.halted, hagain]; exact hskipped), hagain, hsync, hA⟩
  obtain ⟨hhalted, hfailed⟩ : p.halted = false ∧ item.failed = false := by simpa using hskipped
  rcases (hstep hhalted hfailed).step hhalted hfailed with
    ⟨d, s, hrun, hT, hH, hredo⟩ | ⟨d, why, s, hrun, hT, hH, hredo⟩
  · refine ⟨_, _, hrun, hH, hT, fun S hS _ again q hagain hR hsync hA => ?_⟩
    obtain ⟨e, σ, happly, hA'⟩ := hredo S hS _ _ hR hA
    exact ⟨_, _, step_of_ok (hsync.halted.trans hhalted) (hagain.trans hfailed) happly, rfl, hsync.succeed s σ, hA'⟩
  · refine ⟨_, _, hrun, hH, hT, fun S hS hF again q hagain hR hsync hA => ?_⟩
    obtain ⟨e, σ, happly, hA'⟩ := hredo S hS (hF why (Progress.mem_refuse.mpr (.inr rfl))) _ _ hR hA
    exact ⟨_, _, step_of_refused (hsync.halted.trans hhalted) (hagain.trans hfailed) happly, rfl,
      hsync.refuse options why s σ, hA'⟩

/-- A phase of two compilations, with the same declarations failing before it. -/
theorem run_again (hrefl : ∀ s, T s s) (htrans : ∀ s s' s'', T s s' → T s' s'' → T s s'')
    (hskip : ∀ item rest p, p.halted = true ∨ item.failed = true → H (item :: rest) p → H rest p)
    (hstep : ∀ item rest p, H (item :: rest) p → p.halted = false → item.failed = false →
      phase.Leads options item.decl p.store
        (fun d s => T p.store s ∧ H rest { p with store := s } ∧
          ∀ S, T s S → ∀ e σ, R d e → A S σ → phase.EndsAs options e σ (.ok ()) (A S))
        (fun d why s => T p.store s ∧ H rest (p.refuse options why s) ∧
          ∀ S, T s S → F why → ∀ e σ, R d e → A S σ → phase.EndsAs options e σ (.error (.refused why)) (A S)))
    {items : List Item} {p : Progress} (h : H items p) :
    ∃ items' p', phase.run options items p = .ok (items', p') ∧ H [] p' ∧ T p.store p'.store ∧
      ∀ S, T p'.store S → (∀ e ∈ p'.errors, F e) → ∀ again q, again.map (·.failed) = items.map (·.failed) →
        List.Forall₂ R (items'.map (·.decl)) (again.map (·.decl)) → p.InStep q → A S q.store →
        ∃ again' q', phase.run options again q = .ok (again', q') ∧ again'.map (·.failed) = items'.map (·.failed) ∧
          p'.InStep q' ∧ A S q'.store := by
  -- by induction on the items; what the second run needs of the store in the end is needed after each step
  induction items generalizing p with
  | nil =>
    refine ⟨[], p, rfl, h, hrefl _, fun S _ _ again q hfailed _ hsync hA => ?_⟩
    obtain rfl := List.map_eq_nil_iff.mp hfailed
    exact ⟨[], q, rfl, rfl, hsync, hA⟩
  | cons item rest ih =>
    obtain ⟨item', p₁, hitem, hH₁, hT₁, hagain₁⟩ :=
      step_again hrefl (fun hs => hskip item rest p hs h) (hstep item rest p h)
    obtain ⟨rest', p', hrest, hH, hT, hagain⟩ := ih hH₁
    refine ⟨item' :: rest', p', ?_, hH, htrans _ _ _ hT₁ hT, fun S hS hF again q hfailed hR hsync hA => ?_⟩
    · rw [run_cons, hitem, ok_bind]
      dsimp only
      rw [hrest]
      rfl
    · obtain ⟨j, others, rfl, hj, hothers⟩ := List.map_eq_cons_iff.mp hfailed
      obtain ⟨hRj, hRothers⟩ := List.forall₂_cons.mp hR
      obtain ⟨j', q₁, hstep₁, hj', hsync₁, hA₁⟩ :=
        hagain₁ S (htrans _ _ _ hT hS) (fun e he => hF e (run_errors hrest he)) j q hj hRj hsync hA
      obtain ⟨others', q', hrun', hfailed', hsync', hA'⟩ := hagain S hS hF others q₁ hothers hRothers hsync₁ hA₁
      refine ⟨j' :: others', q', ?_, by simp [hj', hfailed'], hsync', hA'⟩
      rw [run_cons, hstep₁, ok_bind]
      dsimp only
      rw [hrun']
      rfl

end

end Phase

/-! ### Declarations after a compilation -/

/-- A declaration before and after a compilation. -/
inductive Decl.Becomes : Decl → Decl → Prop where
  | struct (d : StructDecl) : Becomes (.struct d) (.struct d)
  | function {f g : FunctionDecl} (h : g.header.binding = f.header.binding) : Becomes (.function f) (.function g)

theorem Decl.Becomes.refl (d : Decl) : d.Becomes d := by
  cases d with
  | struct d => exact .struct d
  | function f => exact .function rfl

theorem Decl.Becomes.trans {d e f : Decl} (h : d.Becomes e) (h' : e.Becomes f) : d.Becomes f := by
  cases h with
  | struct d => exact h'
  | function h =>
    cases h' with
    | function h' => exact .function (h'.trans h)

/-- A phase changes nothing about what a declaration declares. -/
private theorem Phase.becomes_apply (phase : Phase) (options : Options) (d : Decl) (s : Store) :
    d.Becomes (phase.apply options d s).1 := by
  cases d with
  | struct d => cases phase <;> exact .struct d
  | function f =>
    cases phase with
    | bodies =>
      obtain ⟨r, st, hrun⟩ : ∃ r st, (Check.functionWith options FrameId.module f.info f.header f.body
        fun c frame => Check.block c frame f.body).run { store := s } = (r, st) := ⟨_, _, rfl⟩
      obtain ⟨i, header', body'⟩ := r
      simp only [Phase.apply, Phase.checkBody, check_of_run hrun]
      refine .function ?_
      cases htype : f.info.type with
      | none => exact functionWith_binding htype hrun
      | some t =>
        unfold functionWith at hrun
        rw [htype] at hrun
        cases hrun
        rfl
    | _ => exact .function rfl

/-- A step leaves a declaration alone, or applies the phase to it. -/
theorem Phase.step_decl {phase : Phase} {options : Options} {item item' : Item} {p p' : Progress}
    (h : phase.step options item p = .ok (item', p')) :
    item'.decl = item.decl ∨ item'.decl = (phase.apply options item.decl p.store).1 := by
  unfold Phase.step at h
  split at h
  · cases h
    exact .inl rfl
  · split at h
    · rename_i heq
      cases h
      exact .inr (by rw [heq])
    · rename_i heq
      cases h
      exact .inr (by rw [heq])
    · cases h

theorem Phase.becomes_run {phase : Phase} {options : Options} {items items' : List Item} {p p' : Progress}
    (h : phase.run options items p = .ok (items', p')) :
    List.Forall₂ Decl.Becomes (items.map (·.decl)) (items'.map (·.decl)) := by
  induction items generalizing p items' with
  | nil =>
    cases h
    exact .nil
  | cons item rest ih =>
    obtain ⟨item', rest', q, hstep, hrun, rfl⟩ := Phase.run_cons_inv h
    refine .cons (?_ : item.decl.Becomes item'.decl) (ih hrun)
    rcases Phase.step_decl hstep with heq | heq
    · rw [heq]
      exact .refl _
    · rw [heq]
      exact phase.becomes_apply options item.decl p.store

/-- Only the last phase changes declarations. -/
theorem Phase.decls_run {phase : Phase} {options : Options} {items items' : List Item} {p p' : Progress}
    (hphase : phase ≠ .bodies) (h : phase.run options items p = .ok (items', p')) :
    items'.map (·.decl) = items.map (·.decl) := by
  induction items generalizing p items' with
  | nil =>
    cases h
    rfl
  | cons item rest ih =>
    obtain ⟨item', rest', q, hstep, hrun, rfl⟩ := Phase.run_cons_inv h
    have happly : (phase.apply options item.decl p.store).1 = item.decl := by
      cases phase with
      | bodies => exact absurd rfl hphase
      | _ => cases item.decl <;> rfl
    have hdecl : item'.decl = item.decl := (Phase.step_decl hstep).elim id fun heq => heq.trans happly
    rw [List.map_cons, List.map_cons, hdecl, ih hrun]

/-! ### Registration -/

/-- What is on record about the declarations of a module stays. -/
structure Store.Upholds (decls : List Decl) (s s' : Store) : Prop where
  noted : ∀ d ∈ decls, d.Noted s → d.Noted s'
  taken : ∀ d ∈ decls, d.Taken s → d.Taken s'

section

variable {decls done : List Decl} {m m' x x' : Frame} {s s' σ : Store} {d e : Decl}

private theorem Store.Upholds.refl (s : Store) : s.Upholds decls s := ⟨fun _ _ h => h, fun _ _ h => h⟩

private theorem Store.Upholds.trans {s'' : Store} (h : s.Upholds decls s') (h' : s'.Upholds decls s'') :
    s.Upholds decls s'' :=
  ⟨fun d hd hnoted => h'.noted d hd (h.noted d hd hnoted), fun d hd htaken => h'.taken d hd (h.taken d hd htaken)⟩

/-- One more declaration is registered. -/
private theorem Registered.upholds (hparsed : Parsed decls) (hsub : ∀ e ∈ done ++ [d], e ∈ decls)
    (h : Registered done m x s)
    (h' : Registered (done ++ [d]) m' x' s') : s.Upholds decls s' := by
  have howns : ∀ e ∈ decls, e.Noted s → e.Owns done := fun e he hnoted => by
    obtain ⟨e', he', hspan⟩ := h.owns_of_noted hnoted
    exact hparsed.span_inj (hsub e' (List.mem_append_left _ he'.mem)) he hspan ▸ he'
  refine ⟨fun e he hnoted => h'.noted ((howns e he hnoted).append _), fun e he htaken => ⟨?_, fun hnoted => ?_⟩⟩
  · obtain ⟨m₀, hm₀, hhas⟩ := htaken.name
    cases h.frame_module.symm.trans hm₀
    obtain ⟨f, hf, hname⟩ := (h.has e.name).mp hhas
    exact ⟨m', h'.frame_module, (h'.has e.name).mpr ⟨f, List.mem_append_left _ hf, hname⟩⟩
  · -- the name was taken before, so that it is still not that of `e`
    obtain ⟨m₀, hm₀, hhas⟩ := htaken.name
    cases h.frame_module.symm.trans hm₀
    obtain ⟨f, hf, hname⟩ := (h.has e.name).mp hhas
    obtain ⟨e', he', hspan⟩ := h'.owns_of_noted hnoted
    obtain rfl := hparsed.span_inj (hsub e' he'.mem) he hspan
    refine htaken.unnoted (h.noted ?_)
    rw [Decl.Owns, List.find?_append] at he'
    cases hfind : done.find? (·.name = e'.name) with
    | some g =>
      rw [hfind] at he'
      exact hfind.trans he'
    | none => exact absurd hname (by simpa using List.find?_eq_none.mp hfind f hf)

theorem run_register_noted (hd : d.Noted σ) (he : d.Becomes e) :
    (Phase.register FrameId.module e).run.run σ = (.ok (), σ) := by
  cases he with
  | struct d =>
    change (registerStruct FrameId.module d).run.run σ = _
    unfold registerStruct
    rw [run_bind]
    change (if (σ.structs.find? d.span).isSome = true then pure () else _ : Action Unit).run.run σ = _
    rw [if_pos (by exact hd)]
    rfl
  | @function f g h =>
    have hspan : g.header.span = f.header.span := congrArg Variable.span h
    exact run_registerFunction (by rw [hspan]; exact hd)

private theorem run_declareType_taken {fr : FrameId} {name : String} {t : TypeId} {span : Span}
    (hm : s.frame? fr = some m)
    (hhas : m.has name = true) :
    (declareType fr name t span).run.run s = (.error (.refused ⟨span, .duplicateDeclaration name⟩), s) := by
  unfold declareType updateFrames
  change (liftStop (s.frames.declareType fr name t span) >>= fun frames =>
    (set { s with frames } : Action Unit)).run.run s = _
  unfold Frames.declareType
  rw [Store.frame_get hm]
  simp [hhas, Stop.lift]
  rfl

/-- A declaration whose name is taken is refused; a struct leaves a type behind that nothing refers to. -/
private theorem run_register_taken (hd : d.Taken σ) (he : d.Becomes e) :
    ∃ σ', (Phase.register FrameId.module e).run.run σ = (.error (.refused ⟨d.span, .duplicateDeclaration d.name⟩), σ') ∧
      (σ' = σ ∨ ∃ d', d = .struct d' ∧ σ' = σ.addStruct d') := by
  obtain ⟨⟨m, hm, hhas⟩, hunnoted⟩ := hd
  cases he with
  | struct d =>
    refine ⟨σ.addStruct d, ?_, .inr ⟨d, rfl, rfl⟩⟩
    change (registerStruct FrameId.module d).run.run σ = _
    unfold registerStruct
    rw [run_bind]
    change (if (σ.structs.find? d.span).isSome = true then pure () else _ : Action Unit).run.run σ = _
    rw [if_neg (by exact hunnoted), run_bind]
    change (declareType FrameId.module d.name σ.types.size d.span >>= _).run.run (σ.addStruct d) = _
    rw [run_bind, run_declareType_taken (by exact hm) (by exact hhas)]
    rfl
  | @function f g h =>
    refine ⟨σ, ?_, .inl rfl⟩
    have hspan : g.header.span = f.header.span := congrArg Variable.span h
    change (registerFunction FrameId.module g.header).run.run σ = _
    unfold registerFunction
    rw [run_bind]
    change (if (σ.function g.header.span).variableType.isSome = true then pure () else _ : Action Unit).run.run σ = _
    rw [if_neg (by rw [hspan]; exact hunnoted), run_bind, run_declare hm, h, if_pos (by exact hhas)]
    rfl

private theorem endsAs_runOn {phase : Phase} {options : Options} {a : Action Unit}
    {r : Except Stop Unit} {A : Store → Prop}
    (happly : phase.apply options e σ = (e, a.runOn σ)) (hrun : a.run.run σ = (r, s')) (hA : A s') :
    phase.EndsAs options e σ r A := by
  refine ⟨e, s', ?_, hA⟩
  rw [happly, Action.runOn, show a.run σ = (r, s') from hrun]

/-- What holds of a compilation while the names are registered. -/
structure Recording (decls : List Decl) (rest : List Item) (p : Progress) : Prop where
  untried : ∀ i ∈ rest, i.failed = false
  registered : p.halted = false → ∃ done m x, Registered done m x p.store ∧ done ++ rest.map (·.decl) = decls

private theorem Recording.skip {item : Item} {rest : List Item} {p : Progress}
    (hskip : p.halted = true ∨ item.failed = true)
    (h : Recording decls (item :: rest) p) : Recording decls rest p := by
  refine ⟨fun i hi => h.untried i (List.mem_cons_of_mem _ hi), fun hhalted => ?_⟩
  rw [hhalted, h.untried item List.mem_cons_self] at hskip
  simp at hskip

/-- A name is registered in two compilations. -/
private theorem Recording.leads (options : Options) {A : Store → Store → Prop} {item : Item}
    {rest : List Item} {p : Progress}
    (hparsed : Parsed decls) (hA : ∀ S σ, A S σ → S.Upholds decls σ)
    (hadd : ∀ S σ d, .struct d ∈ decls → ¬(decls.map Decl.name).Nodup → A S σ → A S (σ.addStruct d))
    (h : Recording decls (item :: rest) p)
    (hhalted : p.halted = false) :
    Phase.registration.Leads options item.decl p.store
      (fun d s => p.store.Upholds decls s ∧ Recording decls rest { p with store := s } ∧
        ∀ S, s.Upholds decls S → ∀ e σ, d.Becomes e → A S σ → Phase.registration.EndsAs options e σ (.ok ()) (A S))
      (fun d why s => p.store.Upholds decls s ∧ Recording decls rest (p.refuse options why s) ∧
        ∀ S, s.Upholds decls S → True → ∀ e σ, d.Becomes e → A S σ →
          Phase.registration.EndsAs options e σ (.error (.refused why)) (A S)) := by
  obtain ⟨done, m, x, hregistered, hdecls⟩ := h.registered hhalted
  rw [List.map_cons] at hdecls
  have hmem : item.decl ∈ decls := by simp [← hdecls]
  have hsub : ∀ e ∈ done ++ [item.decl], e ∈ decls := fun e he => by
    rcases List.mem_append.mp he with he | he
    · exact hdecls ▸ List.mem_append_left _ he
    · exact List.mem_singleton.mp he ▸ hmem
  have hspans : ∀ e ∈ done, e.span ≠ item.decl.span := fun e he => (hdecls ▸ hparsed).span_ne he
  have hrecording : ∀ (q : Progress) m x, Registered (done ++ [item.decl]) m x q.store → Recording decls rest q :=
    fun q m x hq => ⟨fun i hi => h.untried i (List.mem_cons_of_mem _ hi), fun _ => ⟨_, m, x, hq, by simp [← hdecls]⟩⟩
  refine (Phase.leads_runOn rfl (registers hregistered hspans)).mono ?_ ?_
  · rintro _ s ⟨rfl, hnew, m', x', hs⟩
    refine ⟨hregistered.upholds hparsed hsub hs, hrecording { p with store := s } m' x' hs, fun S hS e σ he hσ => ?_⟩
    have hnoted : item.decl.Noted s := hs.noted (find?_new hnew)
    exact endsAs_runOn rfl (run_register_noted ((hA S σ hσ).noted _ hmem (hS.noted _ hmem hnoted)) he) hσ
  · rintro _ why s ⟨rfl, ⟨f, hf, hname⟩, rfl, m', x', hs⟩
    refine ⟨hregistered.upholds hparsed hsub hs, hrecording (p.refuse options _ s) m' x' hs, fun S hS _ e σ he hσ => ?_⟩
    have hother : ¬item.decl.Owns (done ++ [item.decl]) := fun howns => by
      rw [Decl.Owns, find?_taken ⟨f, hf, hname⟩] at howns
      exact hspans _ (List.mem_of_find?_eq_some howns) rfl
    have htaken : item.decl.Taken s :=
      hs.of_taken (fun e he => hparsed.span_inj (hsub e he) hmem)
        (List.mem_append_right _ (List.mem_singleton_self _)) hother
    obtain ⟨σ', hrun, hσ'⟩ := run_register_taken ((hA S σ hσ).taken _ hmem (hS.taken _ hmem htaken)) he
    refine endsAs_runOn rfl hrun ?_
    rcases hσ' with rfl | ⟨d, hd, rfl⟩
    · exact hσ
    · exact hadd S σ d (hd ▸ hmem) (hdecls ▸ not_nodup_of_taken ⟨f, hf, hname⟩ _) hσ

/-- The names of a module are registered in two compilations. -/
private theorem registration_again (options : Options) {A : Store → Store → Prop} (hparsed : Parsed decls)
    (hA : ∀ S σ, A S σ → S.Upholds decls σ)
    (hadd : ∀ S σ d, .struct d ∈ decls → ¬(decls.map Decl.name).Nodup → A S σ → A S (σ.addStruct d)) :
    ∃ items p, Phase.registration.run options (decls.map ({ decl := · })) { store := {} } = .ok (items, p) ∧
      (p.halted = false → ∃ m x, Registered decls m x p.store) ∧
      ∀ S, p.store.Upholds decls S → ∀ again q, again.map (·.failed) = decls.map (fun _ => false) →
        List.Forall₂ Decl.Becomes decls (again.map (·.decl)) → Progress.InStep { store := {} } q → A S q.store →
        ∃ again' q', Phase.registration.run options again q = .ok (again', q') ∧
          again'.map (·.failed) = items.map (·.failed) ∧ p.InStep q' ∧ A S q'.store := by
  have hdecls : (decls.map ({ decl := · : Item })).map (·.decl) = decls := by simp [Function.comp_def]
  have hstart : Recording decls (decls.map ({ decl := · })) { store := {} } := by
    refine ⟨fun i hi => ?_, fun _ => ⟨[], _, _, registered_initial, hdecls⟩⟩
    obtain ⟨d, -, rfl⟩ := List.mem_map.mp hi
    rfl
  obtain ⟨items, p, hrun, hH, -, hagain⟩ := Phase.run_again (A := A) Store.Upholds.refl (fun _ _ _ => .trans)
    (fun _ _ _ => Recording.skip) (fun item rest p h hhalted _ => h.leads options hparsed hA hadd hhalted) hstart
  refine ⟨items, p, hrun, fun hhalted => ?_, fun S hS again q hfailed hbecomes hsync hq => ?_⟩
  · obtain ⟨done, m, x, hp, rfl⟩ := hH.registered hhalted
    exact ⟨m, x, by simpa using hp⟩
  · refine hagain S hS (fun _ _ => trivial) again q (by simpa [Function.comp_def] using hfailed) ?_ hsync hq
    rw [Phase.decls_run (by decide) hrun, hdecls]
    exact hbecomes

/-! ### Types of structs and functions -/

/-- What holds of the store while a module is compiled again, when `S` is the one that was left before. -/
structure Again (decls : List Decl) (S σ : Store) : Prop where
  grows : S.GrowsTo σ
  sound : σ.Sound (moduleListing decls)
  idle : σ.Idle
  module : σ.Shows FrameId.module [moduleFunctions decls]
  taken : ∀ d ∈ decls, d.Taken S → d.Taken σ

/-- A type is added that nothing refers to, since the name of the struct is taken. -/
private theorem Store.Sound.addStruct {L : Listing} {d : StructDecl} (h : s.Sound L) (hlisted : L.Lists d.mentions)
    (hrepeated : ¬L.distinct) :
    (s.addStruct d).Sound L := by
  have hg : s.GrowsTo (s.addStruct d) := Store.growsTo_addType _
  have hold : ∀ {j : TypeId} {e : TypeEntry}, (s.addStruct d).typeAt? j = some e → e ≠ .struct d .unresolved →
      s.typeAt? j = some e := fun hj hne =>
    (Store.entry_addType.mp hj).resolve_right fun hnew => hne hnew.2
  refine h.change_types hg rfl rfl ?_
  exact
    { primitives := fun j name => (Store.primitive_addType (by simp)).trans (h.types.primitives j name)
      references := fun j inner hj => by
        obtain ⟨hlt, hknown⟩ := h.types.references j inner (hold hj (by simp))
        exact ⟨hlt, hg.known hknown⟩
      functionTypes := fun j params returns hj => by
        obtain ⟨hparams, hlt, hreturns⟩ := h.types.functionTypes j params returns (hold hj (by simp))
        exact ⟨fun p hp => ⟨(hparams p hp).1, hg.settled (hparams p hp).2⟩, hlt, hg.settled hreturns⟩
      listed := fun j decl state hj => by
        rcases Store.entry_addType.mp hj with hj | ⟨-, heq⟩
        · exact h.types.listed j decl state hj
        · cases heq
          exact hlisted
      resolved := fun j decl fields hj => by
        obtain ⟨hfields, hnames⟩ := h.types.resolved j decl fields (hold hj (by simp))
        exact ⟨fun f hf => hg.settled (hfields f hf), hnames⟩
      written := fun hclosed j decl fields hj => (h.types.written hclosed j decl fields (hold hj (by simp))).grow hg
      failed := fun j decl why hj => h.types.failed j decl why (hold hj (by simp))
      resolving := fun j => (h.types.resolving j).trans
        ⟨fun ⟨decl, hj⟩ => ⟨decl, Store.entry_addType.mpr (.inl hj)⟩, fun ⟨decl, hj⟩ => ⟨decl, hold hj (by simp)⟩⟩
      path := fun hclosed => (h.types.path hclosed).imp fun _ _ => hg.link
      nodup := h.types.nodup
      held := fun j hj => hg.known (h.types.held j hj)
      once := Store.once_addStruct h.types.once
      registered := fun hdistinct => absurd hdistinct hrepeated }

theorem Decl.Noted.grow {d : Decl} (hg : s.GrowsTo s') (h : d.Noted s) : d.Noted s' := by
  cases d with
  | struct d =>
    rw [Decl.Noted, hg.structs]
    exact h
  | function f =>
    obtain ⟨t, ht⟩ := Option.isSome_iff_exists.mp h
    obtain ⟨t', ht', -⟩ := (hg.functions f.header.span).variableType t ht
    rw [Decl.Noted, ht']
    rfl

namespace Again

variable {S : Store}

private theorem upholds (h : Again decls S σ) : S.Upholds decls σ := ⟨fun _ _ hd => hd.grow h.grows, h.taken⟩

/-- A type that nothing refers to. -/
private theorem addStruct {d : StructDecl} (hparsed : Parsed decls) (hd : .struct d ∈ decls)
    (hrepeated : ¬(decls.map Decl.name).Nodup) (h : Again decls S σ) :
    Again decls S (σ.addStruct d) where
  grows := h.grows.trans (Store.growsTo_addType _)
  sound := h.sound.addStruct (fun m hm => hparsed.lists m (Decl.mentions_sub hd m hm)) hrepeated
  idle := h.idle
  module := h.module
  taken e he hS := by
    obtain ⟨hname, hunnoted⟩ := h.taken e he hS
    exact ⟨hname, fun hnoted => hunnoted (by cases e <;> exact hnoted)⟩

private theorem move (h : Again decls S σ) (hmoves : σ.Moves (moduleListing decls) FrameId.exported [] s') :
    Again decls S s' where
  grows := h.grows.trans hmoves.toGrowsTo
  sound := hmoves.sound
  idle := hmoves.toExtends.idle h.idle
  module := h.module.before h.sound.frames hmoves.leaves (by decide)
  taken d hd hS := (h.taken d hd hS).move hmoves (by simp)

end Again

/-- The fields of a registered struct are resolved. -/
theorem run_resolveStruct {fr : FrameId} {d : StructDecl} {t : TypeId} (hr : s.structs.find? d.span = some ⟨t, fr⟩) :
    (resolveStruct fr d).run.run s = (complete d.span t).run.run s := by
  have hregister : (registerStruct fr d).run.run s = (.ok (), s) := by
    unfold registerStruct
    rw [run_bind]
    change (if (s.structs.find? d.span).isSome = true then pure () else _ : Action Unit).run.run s = _
    rw [if_pos (by rw [hr]; rfl)]
    rfl
  have hrecord : (lift (unwrap (some (⟨t, fr⟩ : StructRecord))) : Action StructRecord) = pure ⟨t, fr⟩ := rfl
  unfold resolveStruct
  rw [run_bind, hregister]
  dsimp only
  rw [run_bind, show (get : Action Store).run.run s = (.ok s, s) from rfl]
  dsimp only
  rw [hr, hrecord, pure_bind]

private theorem repeats_resolveStruct {L : Listing} {Q : Store → Prop} {fr : FrameId} {d : StructDecl}
    {t : TypeId} (hs : s.Sound L)
    (hidle : s.Idle) (hr : s.structs.find? d.span = some ⟨t, fr⟩) (hknown : s.Known t) :
    Repeats Q s (resolveStruct fr d) (resolveStruct fr d) := by
  intro r s' hrun hfault
  rw [run_resolveStruct hr] at hrun
  obtain ⟨hg, hagain⟩ := repeats_complete hs hidle hknown r s' hrun hfault
  refine ⟨hg, fun s₂ hg₂ hQ => ?_⟩
  rw [run_resolveStruct (by rw [hg₂.structs, hg.structs, hr])]
  exact hagain s₂ hg₂ hQ

private theorem repeats_discard {α : Type} {Q : Store → Prop} {a b : Action α} (h : Repeats Q s a b) :
    Repeats Q s (discard a) (discard b) := by
  rw [discard_eq, discard_eq]
  exact h.bind fun _ _ _ => repeats_pure

/-- How a phase ends at a declaration, and what follows from it. -/
private theorem Phase.Leads.run {phase : Phase} {options : Options} {done done' : Decl → Store → Prop}
    {refused refused' : Decl → Diagnostic → Store → Prop} (h : phase.Leads options d s done refused)
    (hdone : ∀ d' s', phase.apply options d s = (d', ⟨.ok (), s'⟩) → done d' s' → done' d' s')
    (hrefused : ∀ d' why s', phase.apply options d s = (d', ⟨.error (.refused why), s'⟩) → refused d' why s' →
      refused' d' why s') : phase.Leads options d s done' refused' := by
  unfold Phase.Leads at h ⊢
  rcases happly : phase.apply options d s with ⟨d', ⟨(why | f) | u, s'⟩⟩
  · rw [happly] at h
    exact hrefused d' why s' happly h
  · rw [happly] at h
    exact h.elim
  · rw [happly] at h
    exact hdone d' s' happly h

/-- An action that is repeated ends the phase as before. -/
private theorem Phase.endsAs_repeats {phase : Phase} {options : Options} {a b : Action Unit}
    {Q A : Store → Prop} {d' : Decl}
    {r : Except Stop Unit} (hrun : phase.apply options d s = (d', ⟨r, s'⟩)) (hfault : ∀ f, r ≠ .error (.fault f))
    (happly : phase.apply options d s = (d, a.runOn s)) (happly' : phase.apply options e σ = (e, b.runOn σ))
    (h : Repeats Q s a b) (hg : s'.GrowsTo σ) (hQ : Q σ) (hA : A σ) : phase.EndsAs options e σ r A := by
  have ha : a.run.run s = (r, s') := by
    rw [happly, Action.runOn] at hrun
    obtain ⟨-, hrun⟩ := Prod.mk.inj hrun
    rcases hs : a.run s with ⟨r', s''⟩
    rw [hs] at hrun
    cases hrun
    exact hs
  exact endsAs_runOn happly' ((h r s' ha hfault).2 σ hg hQ) hA

/-- What holds of a compilation while types are resolved. -/
structure Studied (decls : List Decl) (rest : List Item) (p : Progress) : Prop where
  resting : Resting decls decls p.store
  owns : ∀ i ∈ rest, i.failed = false → i.decl.Owns decls

private theorem Studied.skip {item : Item} {rest : List Item} {p : Progress} (h : Studied decls (item :: rest) p) :
    Studied decls rest p := ⟨h.resting, fun i hi => h.owns i (List.mem_cons_of_mem _ hi)⟩

/-- A phase that resolves types ends in the same way as before at a declaration. -/
def Phase.Restudies (phase : Phase) (options : Options) (decls : List Decl) : Prop :=
  ∀ d d' e r s s' σ S, Resting decls decls s → d.Owns decls → phase.apply options d s = (d', ⟨r, s'⟩) →
    (∀ f, r ≠ .error (.fault f)) → d.Becomes e → s'.GrowsTo σ → Again decls S σ →
    phase.EndsAs options e σ r (Again decls S)

private theorem restudies_structs (options : Options) (decls : List Decl) : Phase.structs.Restudies options decls := by
  intro d d' e r s s' σ S hrest hd hrun hfault he hg hσ
  cases he with
  | struct d =>
    obtain ⟨t, hr, hknown, -⟩ := hrest.known hd
    exact Phase.endsAs_repeats (Q := fun _ => True) hrun hfault rfl rfl
      (repeats_discard (repeats_resolveStruct hrest.sound hrest.idle hr hknown)) hg trivial hσ
  | @function f g h =>
    cases hrun
    exact ⟨_, σ, rfl, hσ⟩

private theorem restudies_signatures (options : Options) (hparsed : Parsed decls) :
    Phase.signatures.Restudies options decls := by
  intro d d' e r s s' σ S hrest hd hrun hfault he hg hσ
  cases he with
  | struct d =>
    cases hrun
    exact ⟨_, σ, rfl, hσ⟩
  | @function f g h =>
    obtain ⟨hprototype, hmentions⟩ := Listing.lists_cons.mp (hparsed.lists_header hd.mem)
    have hsame : Phase.resolveFunction FrameId.module g = Phase.resolveFunction FrameId.module f := by
      unfold Phase.resolveFunction
      rw [show g.header.span = f.header.span from congrArg Variable.span h,
        show g.header.prototype = f.header.prototype from VariableKind.function.inj (congrArg Variable.kind h)]
    have hrepeats : Repeats (fun _ => True) s (Phase.resolveFunction FrameId.module f)
        (Phase.resolveFunction FrameId.module g) := by
      rw [hsame]
      exact repeats_resolveSignature hrest.sound hrest.idle hrest.module.lt_size hprototype hmentions
        (hrest.functions f hd)
    exact Phase.endsAs_repeats hrun hfault rfl rfl (repeats_discard hrepeats) hg trivial hσ

/-- A phase that resolves types in two compilations. -/
private theorem Phase.Restudies.again {phase : Phase} {options : Options} {P : Bool → Decl → Store → Prop}
    {items : List Item} {p : Progress} (hstudies : phase.Studies options decls P)
    (hrestudies : phase.Restudies options decls)
    (h : Studied decls items p) :
    ∃ items' p', phase.run options items p = .ok (items', p') ∧ Resting decls decls p'.store ∧
      p.store.GrowsTo p'.store ∧
      ∀ S, p'.store.GrowsTo S → ∀ again q, again.map (·.failed) = items.map (·.failed) →
        List.Forall₂ Decl.Becomes (items'.map (·.decl)) (again.map (·.decl)) → p.InStep q → Again decls S q.store →
        ∃ again' q', phase.run options again q = .ok (again', q') ∧ again'.map (·.failed) = items'.map (·.failed) ∧
          p'.InStep q' ∧ Again decls S q'.store := by
  obtain ⟨items', p', hrun, hH, hg, hagain⟩ :=
    Phase.run_again (T := Store.GrowsTo) (A := Again decls) (F := fun _ => True)
    (R := Decl.Becomes) (H := Studied decls) .refl (fun _ _ _ => .trans) (fun _ _ _ _ => Studied.skip)
    (fun item rest p h _ hfailed => by
      have howns := h.owns item List.mem_cons_self hfailed
      refine (hstudies _ _ _ h.resting howns).run ?_ ?_
      · rintro d s happly ⟨rfl, hrest, hg, -⟩
        exact ⟨hg.toGrowsTo, ⟨hrest, h.skip.owns⟩, fun S hS e σ he hσ =>
          hrestudies _ _ _ _ _ _ _ _ h.resting howns happly (by simp) he (hS.trans hσ.grows) hσ⟩
      · rintro d why s happly ⟨rfl, hrest, hg, -⟩
        exact ⟨hg.toGrowsTo, ⟨hrest, h.skip.owns⟩, fun S hS _ e σ he hσ =>
          hrestudies _ _ _ _ _ _ _ _ h.resting howns happly (by simp) he (hS.trans hσ.grows) hσ⟩) h
  exact ⟨items', p', hrun, hH.resting, hg, fun S hS => hagain S hS fun _ _ => trivial⟩

/-! ### Bodies of functions -/

/-- What holds of a compilation while bodies are checked. -/
structure Pending (decls : List Decl) (rest : List Item) (p : Progress) : Prop where
  last : ∃ before, before ++ rest.map (·.decl) = decls
  resting : Resting decls (rest.map (·.decl)) p.store
  owns : ∀ i ∈ rest, i.failed = false → i.decl.Owns decls

private theorem Pending.tail {item : Item} {rest : List Item} {p q : Progress} (h : Pending decls (item :: rest) p)
    (hrest : Resting decls (rest.map (·.decl)) q.store) : Pending decls rest q := by
  obtain ⟨before, hdecls⟩ := h.last
  exact ⟨⟨before ++ [item.decl], by simpa using hdecls⟩, hrest, fun i hi => h.owns i (List.mem_cons_of_mem _ hi)⟩

private theorem Pending.skip {item : Item} {rest : List Item} {p : Progress} (h : Pending decls (item :: rest) p) :
    Pending decls rest p := h.tail (h.resting.sub fun _ hd => List.mem_cons_of_mem _ hd)

/-- A problem other than that a variable of a body has the name of another one. -/
def Diagnostic.Lasting (decls : List Decl) (why : Diagnostic) : Prop :=
  ∀ f, .function f ∈ decls → ∀ n ∈ Expr.nodesBlock f.body, ∀ x ∈ n.declared,
    why ≠ ⟨x.span, .duplicateDeclaration x.name⟩

/-- A function that is checked already is left alone. -/
theorem check_checked (options : Options) {f : FunctionDecl} {s : Store} (hf : f.info.type.isSome = true) :
    f.check options FrameId.module s = (f, { store := s }) := by
  refine check_of_run (r := (f.info, f.header, f.body)) ?_
  unfold functionWith
  rw [if_pos hf]
  rfl

private theorem endsAs_checked {A : Store → Prop} (options : Options) {f : FunctionDecl}
    (hf : f.info.type.isSome = true) (hA : A σ) :
    Phase.bodies.EndsAs options (.function f) σ (.ok ()) A := by
  refine ⟨.function f, σ, ?_, hA⟩
  simp only [Phase.apply, Phase.checkBody, check_checked options hf]

/-- A function that was refused is refused again. -/
private theorem endsAs_refused {todo : List Decl} {S : Store} {options : Options}
    {f g : FunctionDecl} {why : Diagnostic}
    (hparsed : Parsed decls) (h : Resting decls todo s) (hf : (Decl.function f).Owns decls) (htodo : .function f ∈ todo)
    (hrun : Phase.bodies.apply options (.function f) s = (.function g, ⟨.error (.refused why), s'⟩))
    (hwhy : why.Lasting decls) (hg : s'.GrowsTo σ) (hσ : Again decls S σ) :
    Phase.bodies.EndsAs options (.function g) σ (.error (.refused why)) (Again decls S) := by
  have hmem := hf.mem
  obtain ⟨⟨i, header', body'⟩, st, hwalk⟩ : ∃ r st, (functionWith options FrameId.module f.info f.header f.body
    fun c frame => Check.block c frame f.body).run { store := s } = (r, st) := ⟨_, _, rfl⟩
  simp only [Phase.apply, Phase.checkBody, check_of_run hwalk] at hrun
  obtain ⟨hg', hout⟩ := Prod.mk.inj hrun
  obtain ⟨hstop, rfl⟩ := Outcome.mk.inj hout
  obtain rfl := Decl.function.inj hg'
  replace hstop : st.stop = some (.refused why) := by
    split at hstop
    · cases hstop
      assumption
    · cases hstop
  -- the function can be entered for the first time, and in the later store again
  have henters :
      CheckState.Enters (moduleListing decls) (moduleFunctions decls) FrameId.module f.header f.body { store := s } :=
    { opened := rfl
      prepared := h.prepared hparsed hmem htodo
      shows := ⟨_, h.module⟩
      listed := hparsed.lists_header hmem
      registered := h.functions f hf
      params := hparsed.params f hmem
      body := hparsed.body f hmem
      inner := (h.module.within_module h.sound.frames).inner }
  have hwithin : σ.Within FrameId.module [] := hσ.module.within_module hσ.sound.frames
  have hreenters : CheckState.Reenters (moduleListing decls) (moduleFunctions decls) FrameId.module FrameId.module
      { store := s } st { store := σ } :=
    { opened := rfl
      sound := ⟨hσ.sound, hσ.idle, by simp⟩
      grows := hg
      module := hσ.module
      shows := ⟨_, hσ.module⟩
      inner := hwithin.inner
      sees := fun name hname => absurd hname hwithin.not_sees }
  have huntyped : f.info.type = none := by rw [hparsed.untyped f hmem]
  obtain ⟨hstop', hmoves⟩ := functionWith_again (g := FrameId.exported) huntyped henters hreenters (hwhy f hmem)
    (fun v _ => v.retries) hwalk hstop
  obtain ⟨r', st', hwalk'⟩ : ∃ r' st', (functionWith options FrameId.module i header' body'
    fun c frame => Check.block c frame body').run { store := σ } = (r', st') := ⟨_, _, rfl⟩
  rw [hwalk'] at hstop' hmoves
  refine ⟨.function ⟨r'.1, r'.2.1, r'.2.2⟩, st'.store, ?_, hσ.move hmoves⟩
  simp only [Phase.apply, Phase.checkBody, check_of_run (f := ⟨i, header', body'⟩) hwalk',
    show st'.stop = _ from hstop']

/-- The check of a body in two compilations. -/
private theorem Pending.leads (options : Options) {item : Item} {rest : List Item} {p : Progress}
    (hparsed : Parsed decls)
    (h : Pending decls (item :: rest) p) (hfailed : item.failed = false) :
    Phase.bodies.Leads options item.decl p.store
      (fun d s => p.store.GrowsTo s ∧ Pending decls rest { p with store := s } ∧
        ∀ S, s.GrowsTo S → ∀ e σ, d = e → Again decls S σ → Phase.bodies.EndsAs options e σ (.ok ()) (Again decls S))
      (fun d why s => p.store.GrowsTo s ∧ Pending decls rest (p.refuse options why s) ∧
        ∀ S, s.GrowsTo S → why.Lasting decls → ∀ e σ, d = e → Again decls S σ →
          Phase.bodies.EndsAs options e σ (.error (.refused why)) (Again decls S)) := by
  obtain ⟨before, hdecls⟩ := h.last
  have howns := h.owns item List.mem_cons_self hfailed
  refine (leads_bodies options hparsed hdecls h.resting howns).run ?_ ?_
  · rintro d s - ⟨hrest, hg, hannotated⟩
    refine ⟨hg, h.tail hrest, ?_⟩
    rintro S hS e σ rfl hσ
    cases d with
    | struct d => exact ⟨_, σ, rfl, hσ⟩
    | function f =>
      obtain ⟨sig, params, returns, inner, -, -, -, -, htyped⟩ := hannotated f rfl
      exact endsAs_checked options (by rw [htyped.type]; rfl) hσ
  · rintro d why s hrun ⟨hrest, hg, -⟩
    change Phase.bodies.apply options item.decl p.store = _ at hrun
    refine ⟨hg, h.tail hrest, ?_⟩
    rintro S hS hwhy e σ rfl hσ
    cases hitem : item.decl with
    | struct d =>
      rw [hitem] at hrun
      cases hrun
    | function f =>
      rw [hitem] at hrun howns
      obtain ⟨g, rfl⟩ : ∃ g, d = .function g := ⟨_, (congrArg Prod.fst hrun).symm⟩
      exact endsAs_refused hparsed h.resting howns (by simp [hitem]) hrun hwhy (hS.trans hσ.grows) hσ

/-- The bodies of a module are checked in two compilations. -/
private theorem bodies_again (options : Options) {items : List Item} {p : Progress} (hparsed : Parsed decls)
    (h : Pending decls items p) :
    ∃ items' p', Phase.bodies.run options items p = .ok (items', p') ∧ Resting decls [] p'.store ∧
      p.store.GrowsTo p'.store ∧
      ∀ S, p'.store.GrowsTo S → (∀ e ∈ p'.errors, e.Lasting decls) → ∀ again q,
        again.map (·.failed) = items.map (·.failed) → items'.map (·.decl) = again.map (·.decl) → p.InStep q →
        Again decls S q.store → ∃ again' q', Phase.bodies.run options again q = .ok (again', q') ∧ p'.InStep q' := by
  obtain ⟨items', p', hrun, hH, hg, hagain⟩ := Phase.run_again (T := Store.GrowsTo) (A := Again decls)
    (F := Diagnostic.Lasting decls) (R := Eq) (H := Pending decls) .refl (fun _ _ _ => .trans)
    (fun _ _ _ _ => Pending.skip)
    (fun item rest p h _ hfailed => h.leads options hparsed hfailed) h
  refine ⟨items', p', hrun, hH.resting, hg, fun S hS hF again q hfailed hdecls hsync hq => ?_⟩
  rw [← List.forall₂_eq_eq_eq] at hdecls
  obtain ⟨again', q', hrun', -, hsync', -⟩ := hagain S hS hF again q hfailed hdecls hsync hq
  exact ⟨again', q', hrun', hsync'⟩

/-! ### Whole compilations -/

/-- Declarations that have not failed after a phase had not failed before. -/
private theorem Phase.run_standing {phase : Phase} {options : Options} {items items' : List Item}
    {p p' : Progress} {P : Decl → Prop}
    (hphase : phase ≠ .bodies) (hrun : phase.run options items p = .ok (items', p'))
    (h : ∀ i ∈ items, i.failed = false → P i.decl) : ∀ i ∈ items', i.failed = false → P i.decl := by
  induction items generalizing p items' with
  | nil =>
    cases hrun
    exact h
  | cons item rest ih =>
    have hdecls := Phase.decls_run hphase hrun
    obtain ⟨item', rest', q, hstep, hrest, rfl⟩ := Phase.run_cons_inv hrun
    rw [List.map_cons, List.map_cons] at hdecls
    intro i hi hfailed
    rcases List.mem_cons.mp hi with rfl | hi
    · rw [(List.cons.inj hdecls).1]
      refine h item List.mem_cons_self (Bool.eq_false_iff.mpr fun hitem => ?_)
      rw [Phase.step_skip (.inr hitem)] at hstep
      cases hstep
      rw [hitem] at hfailed
      cases hfailed
    · exact ih hrest (fun j hj => h j (List.mem_cons_of_mem _ hj)) i hi hfailed

/-- What the compilation of a module gives, phase by phase. -/
theorem Module.compile_of_runs {options : Options} {m : Module} {items₁ items₂ items₃ items₄ : List Item}
    {p₁ p₂ p₃ p₄ : Progress}
    (h₁ : Phase.registration.run options (m.decls.map ({ decl := · })) { store := m.store } = .ok (items₁, p₁))
    (h₂ : Phase.structs.run options items₁ p₁ = .ok (items₂, p₂))
    (h₃ : Phase.signatures.run options items₂ p₂ = .ok (items₃, p₃))
    (h₄ : Phase.bodies.run options items₃ p₃ = .ok (items₄, p₄)) :
    m.compile options = .ok ({ m with decls := items₄.map (·.decl), store := p₄.store }, p₄.errors) := by
  unfold Module.compile
  simp only [Phase.all, Phase.runAll, h₁, h₂, h₃, h₄, ok_bind]
  rfl

/-- A compilation that ends with its first phase. -/
private theorem Module.compile_of_halted {options : Options} {m : Module} {items : List Item} {p : Progress}
    (h : Phase.registration.run options (m.decls.map ({ decl := · })) { store := m.store } = .ok (items, p))
    (hhalted : p.halted = true) :
    m.compile options = .ok ({ m with decls := items.map (·.decl), store := p.store }, p.errors) :=
  compile_of_runs h (Phase.run_halted hhalted) (Phase.run_halted hhalted) (Phase.run_halted hhalted)

/-- What was registered is on record when the compilation ends. -/
private theorem Resting.upholds {todo : List Decl} (hparsed : Parsed decls) (hs : Registered decls m x s)
    (h : Resting decls todo s') : s.Upholds decls s' where
  noted d hd hnoted := by
    obtain ⟨e, he, hspan⟩ := hs.owns_of_noted hnoted
    exact h.noted (hparsed.span_inj he.mem hd hspan ▸ he)
  taken d hd htaken := h.taken d hd fun howns => htaken.unnoted (hs.noted howns)

private theorem Store.Upholds.addStruct {d : StructDecl} (h : s.Upholds decls σ) : s.Upholds decls (σ.addStruct d) where
  noted e he hnoted := by
    have hσ := h.noted e he hnoted
    cases e <;> exact hσ
  taken e he htaken := by
    obtain ⟨hname, hunnoted⟩ := h.taken e he htaken
    exact ⟨hname, fun hnoted => hunnoted (by cases e <;> exact hnoted)⟩

private theorem Again.start {S : Store} (h : Resting decls [] S) : Again decls S S :=
  ⟨.refl S, h.sound, h.idle, h.module, fun _ _ htaken => htaken⟩

theorem forall₂_becomes_refl (decls : List Decl) : List.Forall₂ Decl.Becomes decls decls := by
  rw [List.forall₂_same]
  exact fun d _ => .refl d

/-- A module whose compilation ended while its names were registered is compiled again. -/
private theorem compile_again_halted (options : Options) (file : SourceFile) (hparsed : Parsed decls)
    {items : List Item} {p : Progress}
    (hrun : Phase.registration.run options (decls.map ({ decl := · })) { store := {} } = .ok (items, p))
    (hhalted : p.halted = true) :
    ∃ m m', Module.compile options { file, decls } = .ok (m, p.errors) ∧
        Module.compile options m = .ok (m', p.errors) := by
  obtain ⟨items₁, p₁, hrun₁, -, hagain⟩ := registration_again (A := Store.Upholds decls) options hparsed
    (fun _ _ h => h) (fun _ _ _ _ _ h => h.addStruct)
  cases hrun.symm.trans hrun₁
  have hdecls : items.map (·.decl) = decls := by simpa [Function.comp_def] using Phase.decls_run (by decide) hrun
  obtain ⟨again, q, hrun', -, hsync, -⟩ := hagain p.store (.refl _) ((items.map (·.decl)).map ({ decl := · }))
    { store := p.store } (by simp [hdecls, Function.comp_def])
    (by simpa [hdecls, Function.comp_def] using forall₂_becomes_refl decls)
    ⟨rfl, rfl⟩ (.refl _)
  have hcompile' :=
    Module.compile_of_halted (m := ⟨file, items.map (·.decl), p.store⟩) hrun' (hsync.halted.trans hhalted)
  rw [hsync.errors] at hcompile'
  exact ⟨_, _, Module.compile_of_halted hrun hhalted, hcompile'⟩

/-- A module that was parsed is compiled again. -/
theorem compile_again (options : Options) (file : SourceFile) (hparsed : Parsed decls) :
    ∃ m errors, Module.compile options { file, decls } = .ok (m, errors) ∧
      ((∀ e ∈ errors, e.Lasting decls) → ∃ m', Module.compile options m = .ok (m', errors)) := by
  obtain ⟨items₁, p₁, hrun₁, hregistered, hagain₁⟩ := registration_again (A := Again decls) options hparsed
    (fun _ _ h => h.upholds) (fun _ _ _ hd hrepeated h => h.addStruct hparsed hd hrepeated)
  cases hhalted : p₁.halted with
  | true =>
    obtain ⟨m, m', hcompile, hcompile'⟩ := compile_again_halted options file hparsed hrun₁ hhalted
    exact ⟨m, _, hcompile, fun _ => ⟨m', hcompile'⟩⟩
  | false =>
    obtain ⟨mf, xf, hs₁⟩ := hregistered hhalted
    obtain ⟨_, _, hrun, -, hunderway, -⟩ := registration_ends options hparsed
    cases hrun₁.symm.trans hrun
    -- the first compilation
    have howns₁ := hunderway.owns hhalted
    obtain ⟨items₂, p₂, hrun₂, hrest₂, hg₂, hagain₂⟩ := (restudies_structs options decls).again
      (studies_structs options decls) (p := p₁) ⟨.of_registered hparsed hs₁, howns₁⟩
    have howns₂ := Phase.run_standing (by decide) hrun₂ howns₁
    obtain ⟨items₃, p₃, hrun₃, hrest₃, hg₃, hagain₃⟩ := (restudies_signatures options hparsed).again
      (studies_signatures options hparsed) (p := p₂) ⟨hrest₂, howns₂⟩
    have howns₃ := Phase.run_standing (by decide) hrun₃ howns₂
    have hdecls₁ : items₁.map (·.decl) = decls := by simpa [Function.comp_def] using Phase.decls_run (by decide) hrun₁
    have hdecls₂ : items₂.map (·.decl) = decls := (Phase.decls_run (by decide) hrun₂).trans hdecls₁
    have hdecls₃ : items₃.map (·.decl) = decls := (Phase.decls_run (by decide) hrun₃).trans hdecls₂
    obtain ⟨items₄, p₄, hrun₄, hrest₄, hg₄, hagain₄⟩ := bodies_again options hparsed (p := p₃)
      ⟨⟨[], hdecls₃⟩, hdecls₃ ▸ hrest₃, howns₃⟩
    refine ⟨_, _, Module.compile_of_runs hrun₁ hrun₂ hrun₃ hrun₄, fun hlasting => ?_⟩
    -- the second compilation, phase by phase, on the declarations and with the store that the first one left
    have hbecomes : List.Forall₂ Decl.Becomes decls (items₄.map (·.decl)) := hdecls₃ ▸ Phase.becomes_run hrun₄
    have hlength : (items₄.map (·.decl)).length = decls.length := hbecomes.length_eq.symm
    obtain ⟨again₁, q₁, hrun₁', hfailed₁, hsync₁, hq₁⟩ := hagain₁ p₄.store (hrest₄.upholds hparsed hs₁)
      ((items₄.map (·.decl)).map ({ decl := · })) { store := p₄.store } (by simpa [Function.comp_def] using hlength)
      (by simpa [Function.comp_def] using hbecomes) ⟨rfl, rfl⟩ (.start hrest₄)
    have hagain : again₁.map (·.decl) = items₄.map (·.decl) := by
      simpa [Function.comp_def] using Phase.decls_run (by decide) hrun₁'
    obtain ⟨again₂, q₂, hrun₂', hfailed₂, hsync₂, hq₂⟩ := hagain₂ p₄.store (hg₃.trans hg₄) again₁ q₁ hfailed₁
      (by rwa [hdecls₂, hagain]) hsync₁ hq₁
    replace hagain := (Phase.decls_run (by decide) hrun₂').trans hagain
    obtain ⟨again₃, q₃, hrun₃', hfailed₃, hsync₃, hq₃⟩ := hagain₃ p₄.store hg₄ again₂ q₂ hfailed₂
      (by rwa [hdecls₃, hagain]) hsync₂ hq₂
    replace hagain := (Phase.decls_run (by decide) hrun₃').trans hagain
    obtain ⟨again₄, q₄, hrun₄', hsync₄⟩ := hagain₄ p₄.store (.refl _) hlasting again₃ q₃ hfailed₃ hagain.symm hsync₃ hq₃
    have hcompile' := Module.compile_of_runs (m := ⟨file, items₄.map (·.decl), p₄.store⟩) hrun₁' hrun₂' hrun₃' hrun₄'
    rw [hsync₄.errors] at hcompile'
    exact ⟨_, hcompile'⟩

/-- A verdict is stable: a module that is compiled again has the same problems in the same order, if
none of them is that a name is declared twice inside of a function. -/
theorem compile_twice (file : SourceFile) (options : Options) (decls : List Decl) (m : Module)
    (errors : List Diagnostic)
    (hdecls : file.declarations = .ok decls) (hcompile : Module.compile options { file, decls } = .ok (m, errors))
    (honce : ∀ e ∈ errors, e.Lasting decls) : ∃ m', Module.compile options m = .ok (m', errors) := by
  obtain ⟨m₁, errors₁, hcompile₁, hagain⟩ := compile_again options file (file.parsed_of_declarations hdecls)
  cases hcompile.symm.trans hcompile₁
  exact hagain honce

/-- The problems of two compilations of a file, one after the other. -/
def SourceFile.compileTwice? (file : SourceFile) (options : Options) : Option (List Diagnostic × List Diagnostic) := do
  let decls ← file.declarations.toOption
  let (m, errors) ← (Module.compile options { file, decls }).toOption
  let (_, errors') ← (Module.compile options m).toOption
  return (errors, errors')

private theorem SourceFile.compileTwice?_spec {file : SourceFile} {options : Options} {errors errors' : List Diagnostic}
    (h : file.compileTwice? options = some (errors, errors')) :
    ∃ decls m m', file.declarations = .ok decls ∧ Module.compile options { file, decls } = .ok (m, errors) ∧
      Module.compile options m = .ok (m', errors') := by
  obtain ⟨decls, hdecls, h⟩ := Option.bind_eq_some_iff.mp h
  obtain ⟨⟨m, e⟩, hm, h⟩ := Option.bind_eq_some_iff.mp h
  obtain ⟨⟨m', e'⟩, hm', h⟩ := Option.bind_eq_some_iff.mp h
  cases h
  exact ⟨decls, m, m', eq_ok_of_toOption hdecls, eq_ok_of_toOption hm, eq_ok_of_toOption hm'⟩

/-- A struct that holds itself, and a function that reads a variable which is not there. -/
theorem compile_twice_unknownVariable :
    ∃ (file : SourceFile) (decls : List Decl) (m m' : Module) (errors : List Diagnostic),
    file.declarations = .ok decls ∧ Module.compile {} { file, decls } = .ok (m, errors) ∧
      errors.map (·.cause) = [.recursiveType ["S", "S"], .unknownSymbol "y"] ∧
      Module.compile {} m = .ok (m', errors) := by
  have hrun : SourceFile.compileTwice? ⟨"twice", "struct S{s:S} fn f()->i32{let x=1;y}".toList⟩ {} = some
      ([⟨⟨11, 12, by decide⟩, .recursiveType ["S", "S"]⟩, ⟨⟨34, 35, by decide⟩, .unknownSymbol "y"⟩],
        [⟨⟨11, 12, by decide⟩, .recursiveType ["S", "S"]⟩, ⟨⟨34, 35, by decide⟩, .unknownSymbol "y"⟩]) := by
    decide +kernel
  obtain ⟨decls, m, -, hdecls, hcompile, -⟩ := SourceFile.compileTwice?_spec hrun
  obtain ⟨m', hcompile'⟩ := compile_twice _ {} decls m _ hdecls hcompile (by simp [Diagnostic.Lasting])
  exact ⟨_, decls, m, m', _, hdecls, hcompile, rfl, hcompile'⟩

/-- A name that is declared twice is a problem of the first compilation only: the first variable has
its type already, and is not declared again, so that the second one is declared in its place. -/
theorem compile_twice_repeatedLet : ∃ (file : SourceFile) (decls : List Decl) (m m' : Module),
    file.declarations = .ok decls ∧
      Module.compile {} { file, decls } = .ok (m, [⟨⟨24, 25, by decide⟩, .duplicateDeclaration "x"⟩]) ∧
      Module.compile {} m = .ok (m', []) := by
  have hrun : SourceFile.compileTwice? ⟨"twice", "fn f() { let x = 1; let x = 2; }".toList⟩ {} = some
      ([⟨⟨24, 25, by decide⟩, .duplicateDeclaration "x"⟩], []) := by
    decide +kernel
  obtain ⟨decls, m, m', hdecls, hcompile, hcompile'⟩ := SourceFile.compileTwice?_spec hrun
  exact ⟨_, decls, m, m', hdecls, hcompile, hcompile'⟩

end

end RainCheck

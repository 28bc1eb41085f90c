import RainCheck.Proofs.Phases

/-!
# Compilations end

The four phases of a compilation, on a module that was parsed.
* The first phase registers the names; afterwards the store is sound, and it stays so (`Resting`).
* The declarations that have not failed own their names (`Underway`).
* Every phase ends, so that every file is compiled.

If no problem is reported, all functions of the module are annotated.
-/

namespace RainCheck

open RainCheck.Action

/-! ### Between declarations -/

/-- The names in the body of a declaration. -/
def Decl.bodyMentions : Decl → List Mention
  | .struct _ => []
  | .function f => Expr.mentionsBlock f.body

/-- The identifiers of a module. -/
def moduleUses (decls : List Decl) : List Use := decls.flatMap (Decl.uses (moduleFunctions decls))

private theorem Decl.bodyMentions_sublist (d : Decl) : d.bodyMentions.Sublist d.mentions := by
  cases d with
  | struct d => exact List.nil_sublist _
  | function f => exact List.sublist_append_right _ _

/-- A declaration begins with its name. -/
private theorem Decl.exists_mention (d : Decl) : ∃ m ∈ d.mentions, m.span = d.span := by
  cases d with
  | struct d => exact ⟨.struct d, List.mem_cons_self, rfl⟩
  | function f => exact ⟨.function f.header, List.mem_append_left _ List.mem_cons_self, rfl⟩

namespace Parsed

variable {decls before behind : List Decl} {d e : Decl} {m n : Mention}

private theorem nodup_mentions (h : Parsed decls) (hd : d ∈ decls) : (d.mentions.map Mention.start).Nodup :=
  ((List.sublist_flatten_of_mem (List.mem_map_of_mem hd)).map _).nodup h.apart

/-- Names in different declarations stand at different places. -/
private theorem apart_behind (h : Parsed (before ++ d :: behind)) (he : e ∈ behind) (hm : m ∈ d.mentions)
    (hn : n ∈ e.mentions) : m.start ≠ n.start := by
  have hapart := h.apart
  rw [List.flatMap_append, List.flatMap_cons, List.map_append, List.map_append] at hapart
  refine (List.nodup_append.mp (List.nodup_append.mp hapart).2.1).2.2 _ (List.mem_map_of_mem hm) _ ?_
  exact List.mem_map_of_mem (List.mem_flatMap.mpr ⟨e, he, hn⟩)

private theorem apart_before (h : Parsed (before ++ d :: behind)) (he : e ∈ before) (hm : m ∈ d.mentions)
    (hn : n ∈ e.mentions) : m.start ≠ n.start := by
  obtain ⟨l₁, l₂, rfl⟩ := List.append_of_mem he
  rw [List.append_assoc, List.cons_append] at h
  exact (apart_behind h (by simp) hn hm).symm

/-- The functions of the module stand elsewhere than those in bodies. -/
private theorem apart_body (h : Parsed decls) {f : FunctionDecl} (hf : .function f ∈ decls) (hd : d ∈ decls)
    (hm : m ∈ d.bodyMentions) : f.header.span ≠ m.span := by
  have hself : .function f.header ∈ (Decl.function f).mentions := List.mem_append_left _ List.mem_cons_self
  have hm' := d.bodyMentions_sublist.subset hm
  suffices hstart : (Mention.function f.header).start ≠ m.start from fun hspan => hstart (congrArg Span.start hspan)
  obtain ⟨before, behind, rfl⟩ := List.append_of_mem hf
  rcases List.mem_append.mp hd with hd | hd
  · exact h.apart_before hd hself hm'
  · rcases List.mem_cons.mp hd with rfl | hd
    · have hnodup : ((Mention.function f.header :: (f.header.prototype.mentions ++ Expr.mentionsBlock f.body)).map
          Mention.start).Nodup := h.nodup_mentions hf
      intro heq
      refine (List.nodup_cons.mp hnodup).1 ?_
      rw [heq]
      exact List.mem_map_of_mem (List.mem_append_right _ hm)
    · exact h.apart_behind hd hself hm'

theorem span_ne (h : Parsed (before ++ d :: behind)) (he : e ∈ before) : e.span ≠ d.span := by
  obtain ⟨m, hm, hspan⟩ := d.exists_mention
  obtain ⟨n, hn, hspan'⟩ := e.exists_mention
  have hstart := h.apart_before he hm hn
  rw [← hspan, ← hspan']
  exact fun heq => hstart (congrArg Span.start heq.symm)

theorem span_inj (h : Parsed decls) (hd : d ∈ decls) (he : e ∈ decls) (hspan : d.span = e.span) : d = e := by
  obtain ⟨before, behind, rfl⟩ := List.append_of_mem he
  rcases List.mem_append.mp hd with hd | hd
  · exact absurd hspan (h.span_ne hd)
  · rcases List.mem_cons.mp hd with rfl | hd
    · rfl
    · obtain ⟨m, hm, hm'⟩ := e.exists_mention
      obtain ⟨n, hn, hn'⟩ := d.exists_mention
      have hstart := h.apart_behind hd hm hn
      rw [← hm', ← hn'] at hspan
      exact absurd (congrArg Span.start hspan.symm) hstart

end Parsed

/-- What holds of the store between two declarations, when the bodies of the declarations `todo` are not checked yet. -/
structure Resting (decls todo : List Decl) (s : Store) : Prop where
  sound : s.Sound (moduleListing decls)
  idle : s.Idle
  module : s.Shows FrameId.module [moduleFunctions decls]
  structs : ∀ d, (Decl.struct d).Owns decls →
    ∃ t state, s.structs.find? d.span = some ⟨t, FrameId.module⟩ ∧ s.typeAt? t = some (.struct d state)
  functions : ∀ f, (Decl.function f).Owns decls → (s.function f.header.span).variableType.isSome = true
  unseen : ∀ d ∈ todo, ∀ h, .function h ∈ d.bodyMentions → s.function h.span = {}
  taken : ∀ d ∈ decls, ¬d.Owns decls → d.Taken s
  tidy : ∀ key, (s.function key).variableType = none → s.function key = {}

/-- What is not registered is not registered by a move inside of functions. -/
theorem Decl.Taken.move {L : Listing} {ms : List Mention} {s s' : Store} {d : Decl} (h : d.Taken s)
    (hmoves : s.Moves L FrameId.exported ms s')
    (hlocal : ∀ f g, .function g ∈ ms → d = .function f → g.span ≠ f.header.span) : d.Taken s' := by
  obtain ⟨⟨m, hm, hhas⟩, hunnoted⟩ := h
  refine ⟨⟨m, hmoves.leaves _ m (by decide) hm, hhas⟩, ?_⟩
  cases d with
  | struct d =>
    rw [Decl.Noted, hmoves.toExtends.structs]
    exact hunnoted
  | function f =>
    have hnone : (s.function f.header.span).variableType = none := by simpa [Decl.Noted] using hunnoted
    rw [Decl.Noted, hmoves.unregistered f.header.span (fun g hg => hlocal f g hg rfl) hnone]
    exact hunnoted

namespace Resting

variable {decls todo todo' : List Decl} {s s' : Store} {ms : List Mention} {d : StructDecl}

/-- The declarations of a module are registered. -/
theorem of_registered {m x : Frame} (hparsed : Parsed decls) (h : Registered decls m x s) : Resting decls decls s where
  sound := h.sound hparsed
  idle := h.idle
  module := h.shows_module
  structs d hd := by
    obtain ⟨t, -, he, hr⟩ := h.structNames d.name d hd
    exact ⟨t, _, hr, he⟩
  functions f hf := by rw [h.functionNames f.header.name f hf]; rfl
  unseen d hd header hm := by
    rcases h.functions header.span with hnew | ⟨-, f, hf, hspan⟩
    · exact hnew
    · exact absurd hspan (hparsed.apart_body hf.mem hd hm)
  taken d hd := h.of_taken (fun e he => hparsed.span_inj he hd) hd
  tidy key hkey := by
    rcases h.functions key with hnew | ⟨hnoted, -⟩
    · exact hnew
    · rw [hnoted] at hkey
      cases hkey

/-- The store after a move that leaves the module alone. -/
private theorem move (h : Resting decls todo s) (hmoves : s.Moves (moduleListing decls) FrameId.exported ms s')
    (hsub : ∀ d ∈ todo', d ∈ todo) (hlocal : ∀ f g, .function f ∈ ms → .function g ∈ decls → f.span ≠ g.header.span)
    (hapart : ∀ d ∈ todo', ∀ f g, .function f ∈ ms → .function g ∈ d.bodyMentions → f.span ≠ g.span) :
    Resting decls todo' s' where
  sound := hmoves.sound
  idle := hmoves.toExtends.idle h.idle
  module := h.module.before h.sound.frames hmoves.leaves (by decide)
  structs d hd := by
    obtain ⟨t, state, hr, he⟩ := h.structs d hd
    obtain ⟨state', he'⟩ := hmoves.toExtends.toGrowsTo.struct he
    exact ⟨t, state', by rw [hmoves.toExtends.structs]; exact hr, he'⟩
  functions f hf := by
    obtain ⟨t, ht⟩ := Option.isSome_iff_exists.mp (h.functions f hf)
    obtain ⟨t', ht', -⟩ := (hmoves.toExtends.functions f.header.span).variableType t ht
    rw [ht']
    rfl
  unseen d hd header hm := by
    have hnew := h.unseen d (hsub d hd) header hm
    rw [hmoves.unregistered header.span (fun f hf => hapart d hd f header hf hm) (by rw [hnew]), hnew]
  taken d hd hother := (h.taken d hd hother).move hmoves fun f g hg hf => hlocal g f hg (hf ▸ hd)
  tidy key hkey := by rw [hmoves.untouched key hkey, h.tidy key (hmoves.toExtends.toGrowsTo.unregistered hkey)]

/-- A declaration that has its name is registered. -/
theorem noted {d : Decl} (h : Resting decls todo s) (hd : d.Owns decls) : d.Noted s := by
  cases d with
  | struct d =>
    obtain ⟨t, state, hr, -⟩ := h.structs d hd
    rw [Decl.Noted, hr]
    rfl
  | function f => exact h.functions f hd

private theorem learn (h : Resting decls todo s) (hs' : s'.Sound (moduleListing decls)) (hlearns : s.Learns s') :
    Resting decls todo s' := by
  have hmoves : s.Moves (moduleListing decls) FrameId.exported [] s' := .of_learns hs' hlearns
  exact h.move hmoves (fun _ hd => hd) (by simp) (by simp)

/-- The type of a struct of the module. -/
theorem known (h : Resting decls todo s) (hd : (Decl.struct d).Owns decls) :
    ∃ t, s.structs.find? d.span = some ⟨t, FrameId.module⟩ ∧ s.Known t ∧
      ∃ state, s.typeAt? t = some (.struct d state) := by
  obtain ⟨t, state, hr, he⟩ := h.structs d hd
  refine ⟨t, hr, ⟨_, he, fun decl state' heq => ?_⟩, state, he⟩
  cases heq
  exact hr

theorem sub (h : Resting decls todo s) (hsub : ∀ d ∈ todo', d ∈ todo) : Resting decls todo' s :=
  { h with unseen := fun d hd => h.unseen d (hsub d hd) }

end Resting

/-- What holds of a compilation after the names are registered, when the bodies of `todo` are not checked yet. -/
structure Underway (options : Options) (decls : List Decl) (todo : List Item) (p : Progress) : Prop where
  last : ∃ before, before ++ todo.map (·.decl) = decls
  resting : p.halted = false → Resting decls (todo.map (·.decl)) p.store
  owns : p.halted = false → ∀ i ∈ todo, i.failed = false → i.decl.Owns decls
  accounted : Accounted (moduleListing decls) (moduleUses decls) options todo p

/-! ### Registration -/

/-- What holds of a compilation while the names are registered. -/
structure Registering (options : Options) (decls : List Decl) (done rest : List Item) (p : Progress) : Prop where
  items : (done ++ rest).map (·.decl) = decls
  registered : p.halted = false → ∃ m x, Registered (done.map (·.decl)) m x p.store
  owns : ∀ i ∈ done, i.failed = false → p.halted = false → i.decl.Owns (done.map (·.decl))
  untried : ∀ i ∈ rest, i.failed = false
  distinct : (decls.map Decl.name).Nodup → ∀ i ∈ done, i.failed = false
  accounted : Accounted (moduleListing decls) (moduleUses decls) options (done ++ rest) p

section

variable {options : Options} {decls : List Decl} {done rest : List Item} {item : Item} {p : Progress}

theorem Registering.start (options : Options) (decls : List Decl) :
    Registering options decls [] (decls.map ({ decl := · })) { store := {} } where
  items := by simp [Function.comp_def]
  registered _ := ⟨_, _, registered_initial⟩
  owns := by simp
  untried i hi := by
    obtain ⟨d, -, rfl⟩ := List.mem_map.mp hi
    rfl
  distinct := by simp
  accounted := ⟨by simp, by simp, by simp⟩

theorem Registering.step (hparsed : Parsed decls) (h : Registering options decls done (item :: rest) p) :
    ∃ item' p', Phase.registration.step options item p = .ok (item', p') ∧
      Registering options decls (done ++ [item']) rest p' := by
  have hfailed : item.failed = false := h.untried item List.mem_cons_self
  cases hhalted : p.halted with
  | true =>
    refine ⟨item, p, Phase.step_skip (.inl hhalted), ?_⟩
    exact
      { h with
        items := by simpa using h.items
        registered := fun hp => by rw [hhalted] at hp; cases hp
        owns := fun i _ _ hp => by rw [hhalted] at hp; cases hp
        untried := fun i hi => h.untried i (List.mem_cons_of_mem _ hi)
        distinct := fun hnodup i hi => by
          rcases List.mem_append.mp hi with hi | hi
          · exact h.distinct hnodup i hi
          · rwa [List.mem_singleton.mp hi]
        accounted := h.accounted.sub fun i hi _ => by simpa using hi }
  | false =>
    obtain ⟨m, x, hregistered⟩ := h.registered hhalted
    have hitems : done.map (·.decl) ++ item.decl :: rest.map (·.decl) = decls := by simpa using h.items
    have hspans : ∀ e ∈ done.map (·.decl), e.span ≠ item.decl.span := fun e he => (hitems ▸ hparsed).span_ne he
    have hleads : Phase.registration.Leads options item.decl p.store _ _ :=
      Phase.leads_runOn rfl (registers hregistered hspans)
    rcases hleads.step hhalted hfailed with
      ⟨d, s, hstep, rfl, hnew, hdone⟩ | ⟨d, why, s, hstep, rfl, htaken, rfl, hdone⟩
    · refine ⟨_, _, hstep, ?_⟩
      exact
        { items := by simpa using h.items
          registered := fun _ => by simpa using hdone
          owns := fun i hi hi' _ => by
            rw [List.map_append]
            rcases List.mem_append.mp hi with hi | hi
            · exact (h.owns i hi hi' hhalted).append _
            · obtain rfl := List.mem_singleton.mp hi
              exact find?_new hnew
          untried := fun i hi => h.untried i (List.mem_cons_of_mem _ hi)
          distinct := fun hnodup i hi => by
            rcases List.mem_append.mp hi with hi | hi
            · exact h.distinct hnodup i hi
            · rw [List.mem_singleton.mp hi]
          accounted := h.accounted.succeed rfl s }
    -- the name is taken, so the declaration is not the one that owns it
    · refine ⟨_, _, hstep, ?_⟩
      exact
        { items := by simpa using h.items
          registered := fun _ => by simpa using hdone
          owns := fun i hi hi' _ => by
            rw [List.map_append]
            rcases List.mem_append.mp hi with hi | hi
            · exact (h.owns i hi hi' hhalted).append _
            · obtain rfl := List.mem_singleton.mp hi
              cases hi'
          untried := fun i hi => h.untried i (List.mem_cons_of_mem _ hi)
          distinct := fun hnodup => by
            rw [← hitems] at hnodup
            exact absurd hnodup (not_nodup_of_taken htaken _)
          accounted := h.accounted.refuse (.inl (.of_kind (by simp [Diagnostic.kind, Cause.kind]))) s _ }

/-- Behind the first phase the names are registered. -/
theorem Registering.underway {items : List Item} (hparsed : Parsed decls) (h : Registering options decls items [] p) :
    Underway options decls items p := by
  have hitems : items.map (·.decl) = decls := by simpa using h.items
  refine ⟨⟨[], hitems⟩, fun hhalted => ?_, fun hhalted i hi hfailed => ?_, by simpa using h.accounted⟩
  · obtain ⟨m, x, hregistered⟩ := h.registered hhalted
    rw [hitems] at hregistered ⊢
    exact .of_registered hparsed hregistered
  · exact hitems ▸ h.owns i hi hfailed hhalted

/-- The names of a module are registered. -/
theorem registration_ends (options : Options) (hparsed : Parsed decls) :
    ∃ items p, Phase.registration.run options (decls.map ({ decl := · })) { store := {} } = .ok (items, p) ∧
      items.map (·.decl) = decls ∧ Underway options decls items p ∧
      ((decls.map Decl.name).Nodup → ∀ i ∈ items, i.failed = false) := by
  obtain ⟨items, p, hrun, h⟩ := Phase.run_ends (Registering options decls) (fun _ _ _ _ => Registering.step hparsed)
    (Registering.start options decls)
  exact ⟨items, p, hrun, by simpa using h.items, h.underway hparsed, h.distinct⟩

/-! ### Types of structs and functions -/

/-- The resolution of a struct has come to an end: the struct has failed, or its fields are resolved. -/
def Store.Decided (s : Store) (failed : Bool) (d : StructDecl) : Prop :=
  ∃ t state, s.structs.find? d.span = some ⟨t, FrameId.module⟩ ∧ s.typeAt? t = some (.struct d state) ∧
    if failed then ∃ why, state = .failed why else ∃ fields, state = .resolved fields

theorem Store.GrowsTo.decided {s s' : Store} (hg : s.GrowsTo s') {failed : Bool} {d : StructDecl}
    (h : s.Decided failed d) : s'.Decided failed d := by
  obtain ⟨t, state, hr, he, hstate⟩ := h
  refine ⟨t, state, by rw [hg.structs]; exact hr, ?_, hstate⟩
  cases failed with
  | true =>
    obtain ⟨why, rfl⟩ := hstate
    exact hg.failed he
  | false =>
    obtain ⟨fields, rfl⟩ := hstate
    exact hg.resolved he

/--
A phase that only learns about types: declarations stay as they are, and `P` holds behind a declaration, given whether
it failed.
-/
def Phase.Studies (phase : Phase) (options : Options) (decls : List Decl) (P : Bool → Decl → Store → Prop) : Prop :=
  ∀ todo d s, Resting decls todo s → d.Owns decls →
    phase.Leads options d s (fun d' s' => d' = d ∧ Resting decls todo s' ∧ s.Learns s' ∧ P false d s')
      (fun d' why s' => d' = d ∧ Resting decls todo s' ∧ s.Learns s' ∧ P true d s' ∧ (moduleListing decls).Allows why)

private theorem resolveStruct_ends {todo : List Decl} {s : Store} {d : StructDecl} (h : Resting decls todo s)
    (hd : (Decl.struct d).Owns decls) :
    (resolveStruct FrameId.module d).Ends s (fun _ s' => Resting decls todo s' ∧ s.Learns s' ∧ s'.Decided false d)
      (fun why s' => Resting decls todo s' ∧ s.Learns s' ∧ s'.Decided true d ∧ (moduleListing decls).Allows why) := by
  obtain ⟨t, hr, hknown, state, he⟩ := h.known hd
  unfold resolveStruct registerStruct
  simp only [ends_bind, ends_get, hr, Option.isSome_some, if_true, ends_pure]
  change (complete d.span t).Ends s _ _
  refine (ends_complete h.sound h.idle hknown).mono ?_ ?_
  · rintro _ s' ⟨hs', hrefines, rfl, hsettled⟩
    obtain ⟨state', he'⟩ := hrefines.toGrowsTo.struct he
    obtain ⟨fields, rfl⟩ := hsettled.2 d state' he'
    exact ⟨h.learn hs' hrefines.learns, hrefines.learns, _, _, by rw [hrefines.structs]; exact hr, he', _, rfl⟩
  · rintro why s' ⟨hs', hrefines, hallows, decl, he'⟩
    obtain ⟨state', he''⟩ := hrefines.toGrowsTo.struct he
    rw [he'] at he''
    cases he''
    exact ⟨h.learn hs' hrefines.learns, hrefines.learns, ⟨_, _, by rw [hrefines.structs]; exact hr, he', _, rfl⟩,
      hallows⟩

theorem studies_structs (options : Options) (decls : List Decl) :
    Phase.structs.Studies options decls fun failed d s => ∀ e, d = .struct e → s.Decided failed e := by
  intro todo d s h hd
  cases d with
  | struct d =>
    refine (Phase.leads_runOn rfl (ends_discard (resolveStruct_ends h hd))).mono ?_ ?_
    · rintro _ s' ⟨rfl, hrest, hg, hdecided⟩
      exact ⟨rfl, hrest, hg, fun e he => by cases he; exact hdecided⟩
    · rintro _ why s' ⟨rfl, hrest, hg, hdecided, hallows⟩
      exact ⟨rfl, hrest, hg, fun e he => (by cases he; exact hdecided), hallows⟩
  | function f => exact ⟨rfl, h, .refl s, nofun⟩

theorem studies_signatures (options : Options) (hparsed : Parsed decls) :
    Phase.signatures.Studies options decls fun failed d s =>
      failed = false → ∀ f, d = .function f → (s.function f.header.span).signature.isSome = true := by
  intro todo d s h hd
  cases d with
  | struct d => exact ⟨rfl, h, .refl s, fun _ _ heq => by cases heq⟩
  | function f =>
    obtain ⟨hprototype, hmentions⟩ := Listing.lists_cons.mp (hparsed.lists_header (List.mem_of_find?_eq_some hd))
    have hkeeps : Keeps (moduleListing decls) s (Phase.resolveFunction FrameId.module f) _ _ :=
      keeps_signature h.sound h.idle h.module.lt_size hprototype hmentions (h.functions f hd)
    refine (Phase.leads_runOn
      (P := fun s' => Resting decls todo s' ∧ s.Learns s' ∧ (s'.function f.header.span).signature.isSome = true)
      (R := fun why s' => Resting decls todo s' ∧ s.Learns s' ∧ (moduleListing decls).Allows why) rfl
      (ends_discard (Ends.mono hkeeps ?_ ?_))).mono ?_ ?_
    · rintro sig s' ⟨hs', hlearns, hsignature⟩
      exact ⟨h.learn hs' hlearns, hlearns, by rw [hsignature]; rfl⟩
    · exact fun why s' ⟨hs', hlearns, hallows⟩ => ⟨h.learn hs' hlearns, hlearns, hallows⟩
    · rintro _ s' ⟨rfl, hrest, hg, hsignature⟩
      exact ⟨rfl, hrest, hg, fun _ g hg' => by cases hg'; exact hsignature⟩
    · exact fun _ _ _ ⟨hd, hrest, hg, hallows⟩ => ⟨hd, hrest, hg, nofun, hallows⟩

/-- What a phase that learns about types does at one declaration. -/
theorem Phase.Studies.step {phase : Phase} {P : Bool → Decl → Store → Prop} (hphase : phase.Studies options decls P)
    (h : Underway options decls (done ++ item :: rest) p) :
    ∃ item' p', phase.step options item p = .ok (item', p') ∧ item'.decl = item.decl ∧
      Underway options decls (done ++ [item'] ++ rest) p' ∧ p.store.Learns p'.store ∧
      (p.halted = false → item.failed = false → P item'.failed item.decl p'.store) := by
  by_cases hskip : p.halted = true ∨ item.failed = true
  -- an item that is skipped, since the phase halted or its declaration failed before
  · refine ⟨item, p, Phase.step_skip hskip, rfl, by simpa using h, .refl _, fun hhalted hfailed => ?_⟩
    rcases hskip with hskip | hskip
    · rw [hhalted] at hskip
      cases hskip
    · rw [hfailed] at hskip
      cases hskip
  · obtain ⟨hhalted, hfailed⟩ : p.halted = false ∧ item.failed = false := by simpa using hskip
    have hrest := h.resting hhalted
    have howns := h.owns hhalted item (by simp) hfailed
    have hmap : ∀ failed, List.map Item.decl (done ++ [⟨item.decl, failed⟩] ++ rest) =
        List.map Item.decl (done ++ item :: rest) := by
      simp
    have howns' : ∀ failed, ∀ i ∈ done ++ [⟨item.decl, failed⟩] ++ rest, i.failed = false → i.decl.Owns decls := by
      intro failed i hi hi'
      simp only [List.append_assoc, List.mem_append, List.mem_singleton] at hi
      rcases hi with hi | rfl | hi
      · exact h.owns hhalted i (by simp [hi]) hi'
      · exact howns
      · exact h.owns hhalted i (by simp [hi]) hi'
    rcases (hphase _ _ _ hrest howns).step hhalted hfailed with ⟨d, s, hstep, rfl, hrest', hg, hP⟩ |
      ⟨d, why, s, hstep, rfl, hrest', hg, hP, hallows⟩
    · refine ⟨_, _, hstep, rfl, ⟨?_, fun _ => ?_, fun _ => howns' false, h.accounted.succeed rfl s⟩, hg, fun _ _ => hP⟩
      · rw [hmap]
        exact h.last
      · rw [hmap]
        exact hrest'
    · refine ⟨_, _, hstep, rfl, ⟨?_, fun _ => ?_, fun _ => howns' true, ?_⟩, hg, fun _ _ => hP⟩
      · rw [hmap]
        exact h.last
      · rw [hmap]
        exact hrest'
      · exact h.accounted.refuse (.inl hallows) s _

/-- A phase that learns about types ends, with the same declarations. -/
theorem Phase.Studies.run {phase : Phase} {P : Bool → Decl → Store → Prop} (hphase : phase.Studies options decls P)
    {items : List Item} (h : Underway options decls items p) :
    ∃ items' p', phase.run options items p = .ok (items', p') ∧ items'.map (·.decl) = items.map (·.decl) ∧
      Underway options decls items' p' ∧ p.store.Learns p'.store := by
  have hrun : ∃ items' p', phase.run options items p = .ok (items', p') ∧
      List.map Item.decl (items' ++ []) = List.map Item.decl items ∧ Underway options decls (items' ++ []) p' ∧
      p.store.Learns p'.store := by
    refine Phase.run_ends (fun done rest q => List.map Item.decl (done ++ rest) = List.map Item.decl items ∧
      Underway options decls (done ++ rest) q ∧ p.store.Learns q.store) (fun done item rest q h => ?_) ⟨rfl, h, .refl _⟩
    obtain ⟨item', q', hstep, hdecl, h', hg, -⟩ := hphase.step h.2.1
    exact ⟨item', q', hstep, by simpa [hdecl] using h.1, h', h.2.2.trans hg⟩
  simpa using hrun

/-! ### Bodies of functions -/

/-- A function of the module can be checked. -/
theorem Resting.prepared {todo : List Decl} {s : Store} {f : FunctionDecl} (hparsed : Parsed decls)
    (h : Resting decls todo s) (hf : .function f ∈ decls) (htodo : .function f ∈ todo) :
    Prepared (moduleListing decls) (moduleFunctions decls) (Expr.mentionsBlock f.body) { store := s } where
  sound := ⟨h.sound, h.idle, nofun⟩
  listed m hm := hparsed.lists m (Decl.mentions_sub hf m (List.mem_append_right _ hm))
  apart := ((Decl.function f).bodyMentions_sublist.map _).nodup (hparsed.nodup_mentions hf)
  unseen := h.unseen _ htodo
  module := h.module

/-- The walk through a function of the module, in a frame of its own. -/
theorem Resting.walks {todo : List Decl} {s : Store} {f : FunctionDecl} {fr : FrameId} (options : Options)
    (hparsed : Parsed decls) (h : Resting decls todo s) (hf : (Decl.function f).Owns decls) (htodo : .function f ∈ todo)
    (hfr : fr < 3) :
    Check.Walks (moduleListing decls) fr
      ⟨Expr.mentionsBlock f.body, f.uses (moduleFunctions decls), []⟩
      (Check.functionWith options FrameId.module f.info f.header f.body fun c frame => Check.block c frame f.body)
      { store := s } fun r s' => FunctionDecl.Annotated s' ⟨r.1, r.2.1, r.2.2⟩ := by
  have hmem : .function f ∈ decls := List.mem_of_find?_eq_some hf
  rw [hparsed.untyped f hmem]
  have hfr : fr < s.frames.size := Nat.lt_of_lt_of_le hfr h.sound.frames.three_le
  exact walks_function (h.prepared hparsed hmem htodo) hfr h.module (hparsed.lists_header hmem) (h.functions f hf)
    (hparsed.params f hmem) fun c' fr' => checks_blockOf f.body (hparsed.body f hmem) c' fr' _

/-- The check of a function, told by the walk through it. -/
theorem check_of_run {f : FunctionDecl} {s : Store} {fr : FrameId} {r : Info × Header × Block Expr} {st : CheckState}
    (hrun : (Check.functionWith options fr f.info f.header f.body
      fun c frame => Check.block c frame f.body).run { store := s } = (r, st)) :
    f.check options fr s = (⟨r.1, r.2.1, r.2.2⟩, st) := by
  unfold FunctionDecl.check
  dsimp only
  rw [hrun]

theorem leads_bodies {todo before : List Decl} {d : Decl} {s : Store} (options : Options) (hparsed : Parsed decls)
    (hdecls : before ++ d :: todo = decls) (h : Resting decls (d :: todo) s) (hd : d.Owns decls) :
    Phase.bodies.Leads options d s
      (fun d' s' => Resting decls todo s' ∧ s.GrowsTo s' ∧ ∀ f, d' = .function f → f.Annotated s')
      (fun _ why s' => Resting decls todo s' ∧ s.GrowsTo s' ∧
        Explains (moduleListing decls) (moduleUses decls) why) := by
  cases d with
  | struct d =>
    refine ⟨h.sub fun e he => List.mem_cons_of_mem _ he, .refl s, fun f hf => ?_⟩
    cases hf
  | function f =>
    have hwalks := h.walks options hparsed hd List.mem_cons_self (show FrameId.exported < 3 by decide)
    obtain ⟨r, st, hrun⟩ : ∃ r st, (Check.functionWith options FrameId.module f.info f.header f.body
      fun c frame => Check.block c frame f.body).run { store := s } = (r, st) := ⟨_, _, rfl⟩
    obtain ⟨hgo, hannotated⟩ := (Check.walks_iff hrun).mp hwalks
    -- the bodies behind this one lie elsewhere in the text, so what was checked here registers nothing of theirs
    have hrest : Resting decls todo st.store := by
      refine h.move hgo.moves (fun e he => List.mem_cons_of_mem _ he) (fun g g' hg hg' => ?_)
        fun e he g g' hg hg' heq => ?_
      · exact (hparsed.apart_body hg' hd.mem hg).symm
      exact (hdecls ▸ hparsed).apart_behind he (List.mem_append_right _ hg) (e.bodyMentions_sublist.subset hg')
        (congrArg Span.start heq)
    have huses : ∀ u ∈ f.uses (moduleFunctions decls), u ∈ moduleUses decls := fun u hu =>
      List.mem_flatMap.mpr ⟨_, List.mem_of_find?_eq_some hd, hu⟩
    unfold Phase.Leads
    simp only [Phase.apply, Phase.checkBody, check_of_run hrun]
    cases hstop : st.stop with
    | none =>
      refine ⟨hrest, hgo.grows, fun g hg => ?_⟩
      cases hg
      exact hannotated hstop
    | some why =>
      cases why with
      | fault g => exact hgo.faultless g hstop
      | refused why =>
        refine ⟨hrest, hgo.grows, ?_⟩
        rcases hgo.explained why hstop with hbefore | hallows | ⟨u, hu, hwhy⟩
        · cases hbefore
        · exact .inl hallows
        · exact .inr ⟨u, huses u hu, hwhy⟩

/-- What holds while bodies are checked: the rest is underway, and without problems all that is done is annotated. -/
def Checked (options : Options) (decls : List Decl) (done rest : List Item) (p : Progress) : Prop :=
  Underway options decls rest p ∧ (p.errors = [] → ∀ i ∈ done, ∀ f, i.decl = .function f → f.Annotated p.store)

theorem Checked.step (hparsed : Parsed decls) (h : Checked options decls done (item :: rest) p) :
    ∃ item' p', Phase.bodies.step options item p = .ok (item', p') ∧ Checked options decls (done ++ [item']) rest p' ∧
      p.store.GrowsTo p'.store := by
  obtain ⟨hunderway, hdone⟩ := h
  obtain ⟨before, hdecls⟩ := hunderway.last
  have hlast : ∃ before, before ++ rest.map (·.decl) = decls := ⟨before ++ [item.decl], by simpa using hdecls⟩
  have howns : p.halted = false → ∀ i ∈ rest, i.failed = false → i.decl.Owns decls := fun hhalted i hi =>
    hunderway.owns hhalted i (List.mem_cons_of_mem _ hi)
  by_cases hskip : p.halted = true ∨ item.failed = true
  · refine ⟨item, p, Phase.step_skip hskip, ⟨⟨hlast, fun hhalted => ?_, howns, ?_⟩, fun herrors => ?_⟩, .refl _⟩
    · exact (hunderway.resting hhalted).sub fun d hd => List.mem_cons_of_mem _ hd
    · exact hunderway.accounted.sub fun i hi _ => List.mem_cons_of_mem _ hi
    · rcases hskip with hskip | hskip
      · exact absurd herrors (hunderway.accounted.halted hskip).1
      · exact absurd herrors (hunderway.accounted.failed item List.mem_cons_self hskip)
  · obtain ⟨hhalted, hfailed⟩ : p.halted = false ∧ item.failed = false := by simpa using hskip
    have hleads := leads_bodies options hparsed hdecls (hunderway.resting hhalted)
      (hunderway.owns hhalted item List.mem_cons_self hfailed)
    rcases hleads.step hhalted hfailed with ⟨d, s, hstep, hrest, hg, hannotated⟩ | ⟨d, why, s, hstep, hrest, hg, hwhy⟩
    · refine ⟨_, _, hstep, ⟨⟨hlast, fun _ => hrest, fun _ => howns hhalted, ?_⟩, fun herrors i hi f hf => ?_⟩, hg⟩
      · exact hunderway.accounted.tail s
      · rcases List.mem_append.mp hi with hi | hi
        · exact (hdone herrors i hi f hf).grow hg
        · obtain rfl := List.mem_singleton.mp hi
          exact hannotated f hf
    · refine ⟨_, _, hstep, ⟨⟨hlast, fun _ => hrest, fun _ => howns hhalted, ?_⟩, fun herrors => ?_⟩, hg⟩
      · exact hunderway.accounted.refuse hwhy s _
      · exact absurd herrors (List.ne_nil_of_mem (Progress.mem_refuse.mpr (.inr rfl)))

/-! ### Whole compilations -/

/-- The phases before bodies are checked. -/
def Phase.preparation : List Phase := [.registration, .structs, .signatures]

/-- A module is prepared for the check of bodies. -/
theorem preparation_ends (options : Options) (hparsed : Parsed decls) :
    ∃ items p, Phase.runAll options Phase.preparation (decls.map ({ decl := · })) { store := {} } = .ok (items, p) ∧
      items.map (·.decl) = decls ∧ Underway options decls items p := by
  obtain ⟨items₁, p₁, hrun₁, hitems₁, h₁, -⟩ := registration_ends options hparsed
  obtain ⟨items₂, p₂, hrun₂, hitems₂, h₂, -⟩ := (studies_structs options decls).run h₁
  obtain ⟨items₃, p₃, hrun₃, hitems₃, h₃, -⟩ := (studies_signatures options hparsed).run h₂
  refine ⟨items₃, p₃, ?_, hitems₃.trans (hitems₂.trans hitems₁), h₃⟩
  simp only [Phase.preparation, Phase.runAll, hrun₁, ok_bind, hrun₂, hrun₃]

/-- Before bodies are checked, options other than whether to go on behind a problem make no difference. -/
theorem preparation_options {options' : Options} (hcontinue : options'.continueOnError = options.continueOnError)
    (items : List Item) (p : Progress) :
    Phase.runAll options' Phase.preparation items p = Phase.runAll options Phase.preparation items p := by
  have hrun : ∀ {phase : Phase}, phase ≠ .bodies → phase.run options' = phase.run options := fun hphase => by
    funext items p
    exact Phase.run_options hphase hcontinue
  simp only [Phase.preparation, Phase.runAll, hrun (show Phase.registration ≠ .bodies by decide),
    hrun (show Phase.structs ≠ .bodies by decide), hrun (show Phase.signatures ≠ .bodies by decide)]

/-- The bodies of a prepared module are checked. -/
theorem bodies_end (hparsed : Parsed decls) {items : List Item} (h : Underway options decls items p) :
    ∃ items' q, Phase.bodies.run options items p = .ok (items', q) ∧ Checked options decls items' [] q ∧
      p.store.GrowsTo q.store := by
  refine Phase.run_ends (fun done rest q => Checked options decls done rest q ∧ p.store.GrowsTo q.store)
    (fun done item rest q h => ?_) ⟨⟨h, by simp⟩, .refl _⟩
  obtain ⟨item', q', hstep, h', hg⟩ := Checked.step hparsed h.1
  exact ⟨item', q', hstep, h', h.2.trans hg⟩

/-- What the compilation of a prepared module gives. -/
theorem compile_of_prepared {file : SourceFile} {items items' : List Item} {q : Progress}
    (hprepared : Phase.runAll options Phase.preparation (decls.map ({ decl := · })) { store := {} } = .ok (items, p))
    (hbodies : Phase.bodies.run options items p = .ok (items', q)) :
    Module.compile options { file, decls } =
        .ok ({ file, decls := items'.map (·.decl), store := q.store }, q.errors) := by
  have hall : ∀ (items : List Item) (p : Progress), Phase.runAll options Phase.all items p =
      Phase.runAll options Phase.preparation items p >>= fun r => Phase.runAll options [.bodies] r.1 r.2 := by
    intro items p
    simp only [Phase.all, Phase.preparation, Phase.runAll, bind_assoc, ok_bind]
  unfold Module.compile
  simp only [hall, hprepared, ok_bind, Phase.runAll, hbodies]
  rfl

/-- What the compilation of a file gives that can be read. -/
theorem SourceFile.compile_of_module {file : SourceFile} {m : Module} {errors : List Diagnostic}
    (hdecls : file.declarations = .ok decls) (hcompile : Module.compile options { file, decls } = .ok (m, errors)) :
    file.compile options = .ok ⟨file, some m, errors⟩ := by
  simp only [SourceFile.compile, hdecls, hcompile, ok_bind]
  rfl

/-- What the compilation of a file gives that cannot be read. -/
theorem SourceFile.compile_of_refused {file : SourceFile} {d : Diagnostic} (options : Options)
    (hrefused : file.declarations = .error (.refused d)) : file.compile options = .ok ⟨file, none, [d]⟩ := by
  simp only [SourceFile.compile, hrefused]

/-- A module that was parsed is compiled. -/
theorem compile_ends (options : Options) (file : SourceFile) (hparsed : Parsed decls) :
    ∃ m errors, Module.compile options { file, decls } = .ok (m, errors) ∧
      (∀ d ∈ errors, Explains (moduleListing decls) (moduleUses decls) d) ∧
      (errors = [] → ∀ f, .function f ∈ m.decls → f.Annotated m.store) := by
  obtain ⟨items, p, hprepared, -, h⟩ := preparation_ends options hparsed
  obtain ⟨items', q, hbodies, ⟨h', hdone⟩, -⟩ := bodies_end hparsed h
  refine ⟨_, _, compile_of_prepared hprepared hbodies, h'.accounted.explained, fun herrors f hf => ?_⟩
  obtain ⟨i, hi, hdecl⟩ := List.mem_map.mp hf
  exact hdone herrors i hi f hdecl

/-- A file is compiled: it is refused by the parser, or its module is compiled. -/
theorem SourceFile.compile_cases (file : SourceFile) (options : Options) :
    (∃ d, file.compile options = .ok ⟨file, none, [d]⟩) ∨
      ∃ decls m errors, file.declarations = .ok decls ∧ Parsed decls ∧
        file.compile options = .ok ⟨file, some m, errors⟩ ∧
        (∀ d ∈ errors, Explains (moduleListing decls) (moduleUses decls) d) ∧
        (errors = [] → ∀ f, .function f ∈ m.decls → f.Annotated m.store) := by
  rcases file.declarations_parsed with ⟨decls, hdecls, hparsed⟩ | ⟨d, hrefused⟩
  · obtain ⟨m, errors, hcompile, hexplained, hannotated⟩ := compile_ends options file hparsed
    exact .inr ⟨decls, m, errors, hdecls, hparsed, file.compile_of_module hdecls hcompile, hexplained, hannotated⟩
  · exact .inl ⟨d, file.compile_of_refused options hrefused⟩

/-- Every text is compiled: whatever bytes a file has and whatever is asked for, no fault is raised. -/
theorem compile_of_bytes (name : String) (bytes : List UInt8) (options : Options) :
    ∃ u, (SourceFile.ofBytes name bytes).compile options = .ok u := by
  rcases (SourceFile.ofBytes name bytes).compile_cases options with ⟨d, hcompile⟩ | ⟨_, _, _, -, -, hcompile, -⟩
  · exact ⟨_, hcompile⟩
  · exact ⟨_, hcompile⟩

/-- If no problem is reported, every function of the module is annotated. -/
theorem annotated_of_no_errors (file : SourceFile) (options : Options) (u : CompiledUnit)
    (hcompile : file.compile options = .ok u) (herrors : u.errors = []) :
    ∃ m, u.module = some m ∧ ∀ f, .function f ∈ m.decls → f.Annotated m.store := by
  rcases file.compile_cases options with ⟨d, hcompile'⟩ | ⟨decls, m, errors, -, -, hcompile', -, hannotated⟩
  · rw [hcompile] at hcompile'
    cases hcompile'
    cases herrors
  · rw [hcompile] at hcompile'
    cases hcompile'
    exact ⟨m, rfl, hannotated herrors⟩

/-- A struct and a function that reads a field of it through a reference. -/
theorem annotated_fieldReader : ∃ u m,
    SourceFile.compile {} ⟨"reader", "struct P{x:i32} fn f(p:&P)->i32{let y=p.x;y}".toList⟩ = .ok u ∧
      u.errors = [] ∧ u.module = some m ∧ m.decls.length = 2 ∧ ∀ f, .function f ∈ m.decls → f.Annotated m.store := by
  have hrun : (SourceFile.compile {}
      ⟨"reader", "struct P{x:i32} fn f(p:&P)->i32{let y=p.x;y}".toList⟩).toOption.map
        (fun u => (u.errors, u.module.map (·.decls.length))) = some ([], some 2) := by
    decide +kernel
  cases hcompile : SourceFile.compile {}
      ⟨"reader", "struct P{x:i32} fn f(p:&P)->i32{let y=p.x;y}".toList⟩ with
  | error f =>
    rw [hcompile] at hrun
    cases hrun
  | ok u =>
    rw [hcompile] at hrun
    obtain ⟨herrors, hlength⟩ := Prod.mk.inj (Option.some.inj hrun)
    obtain ⟨m, hm, hannotated⟩ := annotated_of_no_errors _ _ u hcompile herrors
    rw [hm] at hlength
    exact ⟨u, m, rfl, herrors, hm, Option.some.inj hlength, hannotated⟩

end

end RainCheck

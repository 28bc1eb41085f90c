import RainCheck.Proofs.Containment
import RainCheck.Proofs.Readying
import RainCheck.Proofs.Signatures
import RainCheck.Proofs.StructStates

/-!
# What is known before bodies are checked

If no name is taken twice, the declarations alone tell which of them fail before bodies are checked,
and what is known of the others (`preparation_concludes`).
* (names) The names of the module are known inside of it, and for others just if they are exported (`Frame.Exports`).
* (structs) The fields of a struct are resolved, unless it is doomed.
* (functions) The type of a function is resolved, unless a declared type names nothing or a doomed struct by value.
-/

namespace RainCheck

open RainCheck.Action

/-! ### Exported names -/

section

variable {f g : Frame} {name key : String}

/-- A name means the same in both frames. -/
def Frame.Agrees (f g : Frame) (name : String) : Prop :=
  g.findVariable name = f.findVariable name ∧ g.findType name = f.findType name

private theorem Frame.agrees_of_absent (hf : f.has name = false) (hg : g.has name = false) : f.Agrees g name := by
  simp only [Frame.has, Bool.or_eq_false_iff, Option.isSome_eq_false_iff, Option.isNone_iff_eq_none] at hf hg
  exact ⟨hg.1.trans hf.1.symm, hg.2.trans hf.2.symm⟩

/-- A name still means the same if both frames get the same declaration. -/
private theorem Frame.Agrees.enroll (h : f.Agrees g name) (t : TypeId) (d : Decl) :
    (f.enroll t d).Agrees (g.enroll t d) name := by
  cases d with
  | struct d => exact ⟨h.1, by simp only [Frame.enroll, Frame.findType_addType, h.2]⟩
  | function k =>
    have hvalues : g.values.lookup name = f.values.lookup name := h.1
    exact ⟨by simp only [Frame.enroll, Frame.findVariable, List.lookup_append, hvalues], h.2⟩

/-- A name means the same in a frame that gets a declaration of another name. -/
theorem Frame.agrees_enroll (f : Frame) (t : TypeId) {d : Decl} (hne : d.name ≠ name) :
    f.Agrees (f.enroll t d) name := by
  cases d with
  | struct d =>
    have hne : d.name ≠ name := hne
    exact ⟨rfl, by rw [Frame.enroll, Frame.findType_addType, if_neg hne, Option.or_none]⟩
  | function k =>
    have hne : k.header.name ≠ name := hne
    have hbeq : (name == k.header.name) = false := by simpa using hne.symm
    exact ⟨by simp [Frame.enroll, Frame.findVariable, List.lookup_append, List.lookup_cons, hbeq], rfl⟩

end

/-- The names that are known for others are those of the exported declarations, and they mean the same. -/
def Frame.Exports (m : Frame) (done : List Decl) (x : Frame) : Prop :=
  ∀ name, if (done.find? (·.name = name)).any Decl.exported then m.Agrees x name else x.has name = false

section

variable {done : List Decl} {m m' x x' : Frame} {s : Store} {d : Decl}

private theorem Frame.Exports.append (h : m.Exports done x) (hnew : ∀ e ∈ done, e.name ≠ d.name)
    (hm : ∀ name, d.name ≠ name → m.Agrees m' name) (hx : ∀ name, d.name ≠ name → x.Agrees x' name)
    (hown : if d.exported then m'.Agrees x' d.name else x'.has d.name = false) : m'.Exports (done ++ [d]) x' := by
  intro name
  by_cases hname : d.name = name
  · subst hname
    rwa [find?_new hnew]
  · obtain ⟨hvalue, htype⟩ := hx name hname
    obtain ⟨hvalue', htype'⟩ := hm name hname
    have hold := h name
    rw [find?_other hname, Frame.Agrees, Frame.has, hvalue, htype, hvalue', htype']
    exact hold

/-- The frames of the module and of what is exported from it. -/
def Store.Exports (s : Store) (done : List Decl) : Prop :=
  ∃ m x, s.frame? FrameId.module = some m ∧ s.frame? FrameId.exported = some x ∧ m.Exports done x

private theorem Registered.exports (h : Registered done m x s) (hx : m.Exports done x)
    (hnew : ∀ e ∈ done, e.name ≠ d.name)
    (hapart : ∀ e ∈ done, e.span ≠ d.span) :
    (Phase.register FrameId.module d).Ends s (fun _ s' => s'.Exports (done ++ [d])) fun _ _ => False := by
  refine (enrolls h hapart).mono ?_ fun _ _ hrejects => ?_
  · rintro _ s' ⟨t, henrolls⟩
    have hregistered := henrolls.registered
    have hexported : x.has d.name = false := h.exported_new henrolls.new
    refine ⟨_, _, hregistered.frame_module, hregistered.frame_exported,
      hx.append hnew (fun _ => m.agrees_enroll t) (fun _ hne => ?_) ?_⟩
    · split
      · exact x.agrees_enroll t hne
      · exact ⟨rfl, rfl⟩
    · split
      · exact (Frame.agrees_of_absent henrolls.new hexported).enroll t d
      · exact hexported
  · obtain ⟨e, he, hname⟩ := h.has_taken.mp hrejects.taken
    exact hnew e he hname

end

/-! ### Functions whose types are resolved -/

/-- Nothing is known about the type of a function. -/
def Store.Unsigned (s : Store) (f : FunctionDecl) : Prop :=
  (s.function f.header.span).signature = none ∧ (s.function f.header.span).failure = none

/-- The type of a function denotes the declared one, or there is a problem with the function. -/
def Store.Signed (L : Listing) (s : Store) (failed : Bool) (f : FunctionDecl) : Prop :=
  if failed then
    (s.function f.header.span).signature = none ∧ (∃ why, (s.function f.header.span).failure = some why) ∧
      ¬Fine L f.header.prototype.occurrences
  else
    ∃ sig, (s.function f.header.span).signature = some sig ∧ s.Denotes sig (f.header.prototype.term L.scope) ∧
      Fine L f.header.prototype.occurrences

private theorem Store.GrowsTo.signed {L : Listing} {s s' : Store} {failed : Bool} {f : FunctionDecl} (hg : s.GrowsTo s')
    (h : s.Signed L failed f) : s'.Signed L failed f := by
  cases failed with
  | true =>
    obtain ⟨hnone, ⟨why, hwhy⟩, hunfine⟩ := h
    obtain ⟨hnone', hwhy'⟩ := (hg.functions f.header.span).failure why hnone hwhy
    exact ⟨hnone', ⟨why, hwhy'⟩, hunfine⟩
  | false =>
    obtain ⟨sig, hsig, hdenotes, hfine⟩ := h
    exact ⟨sig, (hg.functions f.header.span).signature sig hsig, hg.denotes hdenotes, hfine⟩

section

variable {options : Options} {decls todo : List Decl} {s : Store}

/-- Resolving a struct leaves the functions alone. -/
private theorem Resting.resolveStruct_functions {d : StructDecl} (h : Resting decls todo s)
    (hd : (Decl.struct d).Owns decls) :
    (resolveStruct FrameId.module d).Ends s (fun _ s' => s'.functions = s.functions)
      fun _ s' => s'.functions = s.functions := by
  obtain ⟨t, hr, hknown, -⟩ := h.known hd
  unfold resolveStruct registerStruct
  simp only [ends_bind, ends_get, hr, Option.isSome_some, if_true, ends_pure]
  change (complete d.span t).Ends s _ _
  exact (ends_complete h.sound h.idle hknown).mono (fun _ _ h => h.2.1.functions_eq) fun _ _ h => h.2.1.functions_eq

/-- Behind the third phase a function is signed, and the other functions are left alone. -/
private theorem Resting.resolveFunction_signed {f : FunctionDecl} (hparsed : Parsed decls) (h : Resting decls todo s)
    (hf : (Decl.function f).Owns decls) (hnew : s.Unsigned f) :
    (Phase.resolveFunction FrameId.module f).Ends s
      (fun _ s' => (∀ k, k ≠ f.header.span → s'.function k = s.function k) ∧ s'.Signed (moduleListing decls) false f)
      fun _ s' => (∀ k, k ≠ f.header.span → s'.function k = s.function k) ∧ s'.Signed (moduleListing decls) true f := by
  obtain ⟨-, hmentions⟩ := Listing.lists_cons.mp (hparsed.lists_header hf.mem)
  refine (ends_signature_new h.sound h.idle trivial hmentions hnew).mono ?_ ?_
  · exact fun sig s' ⟨hothers, hsig, hdenotes, hfine⟩ => ⟨hothers, sig, hsig, hdenotes, hfine⟩
  · exact fun why s' ⟨hothers, hnone, hwhy, hunfine⟩ => ⟨hothers, hnone, ⟨why, hwhy⟩, hunfine⟩

end

/-! ### The phases -/

section

variable {options : Options} {decls : List Decl} {done rest : List Item} {item : Item} {p : Progress}

/-- What holds while names are registered that are all distinct. -/
structure Exporting (options : Options) (decls : List Decl) (done rest : List Item) (p : Progress) : Prop where
  registering : Registering options decls done rest p
  exports : p.store.Exports (done.map (·.decl))

private theorem Exporting.step (hcontinue : options.continueOnError = true) (hparsed : Parsed decls)
    (hdistinct : (decls.map Decl.name).Nodup) (h : Exporting options decls done (item :: rest) p) :
    ∃ item' p', Phase.registration.step options item p = .ok (item', p') ∧
      Exporting options decls (done ++ [item']) rest p' := by
  obtain ⟨item', p', hstep, h'⟩ := h.registering.step hparsed
  refine ⟨item', p', hstep, h', ?_⟩
  have hhalted := h.registering.accounted.running hcontinue
  obtain ⟨m, x, hregistered⟩ := h.registering.registered hhalted
  have hitems : done.map (·.decl) ++ item.decl :: rest.map (·.decl) = decls := by simpa using h.registering.items
  have hnew : ∀ e ∈ done.map (·.decl), e.name ≠ item.decl.name := fun e he hname =>
    not_nodup_of_taken ⟨e, he, hname⟩ _ (hitems ▸ hdistinct)
  have hexports : m.Exports (done.map (·.decl)) x := by
    obtain ⟨m', x', hm, hx, hexports⟩ := h.exports
    cases hregistered.frame_module.symm.trans hm
    cases hregistered.frame_exported.symm.trans hx
    exact hexports
  have hleads : Phase.registration.Leads options item.decl p.store _ _ :=
    Phase.leads_runOn rfl (hregistered.exports hexports hnew fun e he => (hitems ▸ hparsed).span_ne he)
  rcases hleads.step hhalted (h.registering.untried item List.mem_cons_self) with
    ⟨d, s, hstep', rfl, hexports⟩ | ⟨_, _, _, _, _, hnever⟩
  · cases hstep.symm.trans hstep'
    rw [List.map_append]
    exact hexports
  · exact hnever.elim

/-- What holds while structs are resolved, if no name is taken twice. -/
structure Unsigning (options : Options) (decls : List Decl) (done rest : List Item) (p : Progress) : Prop where
  deciding : Deciding options decls done rest p
  functions : ∀ i ∈ done ++ rest, ∀ f, i.decl = .function f → i.failed = false ∧ p.store.Unsigned f

private theorem Unsigning.step (hcontinue : options.continueOnError = true)
    (h : Unsigning options decls done (item :: rest) p) :
    ∃ item' p', Phase.structs.step options item p = .ok (item', p') ∧
      Unsigning options decls (done ++ [item']) rest p' := by
  obtain ⟨item', p', hstep, h'⟩ := h.deciding.step hcontinue
  refine ⟨item', p', hstep, h', fun i hi f hf => ?_⟩
  have hhalted := h.deciding.underway.accounted.running hcontinue
  have hfailed := h.deciding.untried item List.mem_cons_self
  have hleads : Phase.structs.Leads options item.decl p.store
      (fun d' s' => d' = item.decl ∧ s'.functions = p.store.functions)
      fun d' _ s' => d' = item.decl ∧ s'.functions = p.store.functions ∧ ∃ d, item.decl = .struct d := by
    have howns := h.deciding.underway.owns hhalted item (by simp) hfailed
    cases hdecl : item.decl with
    | function f => exact ⟨rfl, rfl⟩
    | struct d =>
      have hends := (h.deciding.underway.resting hhalted).resolveStruct_functions (hdecl ▸ howns)
      refine (Phase.leads_runOn rfl (ends_discard hends)).mono (fun _ _ => id) ?_
      exact fun _ _ _ h => ⟨h.1, h.2, d, rfl⟩
  have hsame :
      ∀ {s : Store} {f : FunctionDecl}, s.functions = p.store.functions → p.store.Unsigned f → s.Unsigned f := by
    intro s f heq hnew
    unfold Store.Unsigned Store.function at hnew ⊢
    rwa [heq]
  obtain ⟨hdecl, heq, hstruct⟩ : item'.decl = item.decl ∧ p'.store.functions = p.store.functions ∧
      (item'.failed = true → ∃ d, item.decl = .struct d) := by
    rcases hleads.step hhalted hfailed with ⟨d, s, hstep', rfl, heq⟩ | ⟨d, why, s, hstep', rfl, heq, hstruct⟩ <;>
      cases hstep.symm.trans hstep'
    · exact ⟨rfl, heq, nofun⟩
    · exact ⟨rfl, heq, fun _ => hstruct⟩
  simp only [List.append_assoc, List.singleton_append, List.mem_append, List.mem_cons] at hi
  rcases hi with hi | rfl | hi
  · exact (h.functions i (by simp [hi]) f hf).imp_right (hsame heq)
  · refine ⟨?_, hsame heq (h.functions item (by simp) f (hdecl ▸ hf)).2⟩
    by_contra hfailed'
    obtain ⟨d, hd⟩ := hstruct (by simpa using hfailed')
    cases (hdecl.symm.trans hf).symm.trans hd
  · exact (h.functions i (by simp [hi]) f hf).imp_right (hsame heq)

/-- What holds while the types of functions are resolved, if no name is taken twice. -/
structure Concluding (options : Options) (decls : List Decl) (done rest : List Item) (p : Progress) : Prop where
  underway : Underway options decls (done ++ rest) p
  items : (done ++ rest).map (·.decl) = decls
  structs : ∀ i ∈ done ++ rest, ∀ d, i.decl = .struct d → p.store.Decided i.failed d
  untried : ∀ i ∈ rest, ∀ f, i.decl = .function f → i.failed = false ∧ p.store.Unsigned f
  signed : ∀ i ∈ done, ∀ f, i.decl = .function f → p.store.Signed (moduleListing decls) i.failed f

private theorem Concluding.step (hcontinue : options.continueOnError = true) (hparsed : Parsed decls)
    (h : Concluding options decls done (item :: rest) p) :
    ∃ item' p', Phase.signatures.step options item p = .ok (item', p') ∧
      Concluding options decls (done ++ [item']) rest p' := by
  obtain ⟨item', p', hstep, hdecl, hunderway, hg, -⟩ := (studies_signatures options hparsed).step h.underway
  have hitems : (done ++ [item'] ++ rest).map (·.decl) = decls := by simpa [hdecl] using h.items
  have hhalted := h.underway.accounted.running hcontinue
  -- a step concerns the record of its own function only, and none if it is at a struct
  obtain ⟨hothers, hstruct, hfunction⟩ :
      (∀ k, (∀ f, item.decl = .function f → k ≠ f.header.span) → p'.store.function k = p.store.function k) ∧
        (∀ d, item.decl = .struct d → item'.failed = item.failed) ∧
        ∀ f, item.decl = .function f → p'.store.Signed (moduleListing decls) item'.failed f := by
    cases hitem : item.decl with
    | struct d =>
      have hsame : item'.failed = item.failed ∧ p'.store = p.store := by
        cases hfailed : item.failed with
        | true =>
          cases hstep.symm.trans (Phase.step_skip (.inr hfailed))
          exact ⟨hfailed, rfl⟩
        | false =>
          have hleads :
              Phase.signatures.Leads options item.decl p.store (fun d' s' => s' = p.store) fun _ _ _ => False := by
            rw [hitem]
            exact rfl
          rcases hleads.step hhalted hfailed with ⟨d', s', hstep', rfl⟩ | ⟨_, _, _, _, hnever⟩
          · cases hstep.symm.trans hstep'
            exact ⟨rfl, rfl⟩
          · exact hnever.elim
      exact ⟨fun k _ => by rw [hsame.2], fun _ _ => hsame.1, fun _ hf => by cases hf⟩
    | function f =>
      obtain ⟨hfailed, hnew⟩ := h.untried item List.mem_cons_self f hitem
      have howns := h.underway.owns hhalted item (by simp) hfailed
      rw [hitem] at howns
      have hleads : Phase.signatures.Leads options (.function f) p.store _ _ := Phase.leads_runOn rfl
        (ends_discard ((h.underway.resting hhalted).resolveFunction_signed hparsed howns hnew))
      rw [← hitem] at hleads
      rcases hleads.step hhalted hfailed with
        ⟨d, s, hstep', -, hothers, hsigned⟩ | ⟨d, why, s, hstep', -, hothers, hsigned⟩ <;>
        cases hstep.symm.trans hstep'
      · exact ⟨fun k hk => hothers k (hk f rfl), nofun, fun g hg => by cases hg; exact hsigned⟩
      · exact ⟨fun k hk => hothers k (hk f rfl), nofun, fun g hg => by cases hg; exact hsigned⟩
  refine ⟨item', p', hstep, hunderway, hitems, fun i hi d hd => ?_, fun i hi f hf => ?_, fun i hi f hf => ?_⟩
  · simp only [List.append_assoc, List.singleton_append, List.mem_append, List.mem_cons] at hi
    rcases hi with hi | rfl | hi
    · exact hg.decided (h.structs i (by simp [hi]) d hd)
    · rw [hstruct d (hdecl ▸ hd)]
      exact hg.decided (h.structs item (by simp) d (hdecl ▸ hd))
    · exact hg.decided (h.structs i (by simp [hi]) d hd)
  · obtain ⟨hfailed, hnew⟩ := h.untried i (List.mem_cons_of_mem _ hi) f hf
    obtain ⟨before, behind, hrest⟩ := List.append_of_mem hi
    have hapart : item.decl.span ≠ f.header.span := by
      have hdecls : (done ++ item :: before).map (·.decl) ++ Decl.function f :: behind.map (·.decl) = decls := by
        rw [← hf]
        simpa [hrest] using h.items
      exact (hdecls ▸ hparsed).span_ne (by simp)
    refine ⟨hfailed, ?_⟩
    unfold Store.Unsigned at hnew ⊢
    rwa [hothers f.header.span fun g hg heq => hapart (by rw [hg, heq]; rfl)]
  · rcases List.mem_append.mp hi with hi | hi
    · exact hg.signed (h.signed i hi f hf)
    · obtain rfl := List.mem_singleton.mp hi
      exact hfunction f (hdecl ▸ hf)

end

/-! ### Behind the phases -/

/-- What is known behind the phases before bodies are checked, if no name is taken twice. -/
structure Concluded (decls : List Decl) (items : List Item) (s : Store) : Prop where
  decls_eq : items.map (·.decl) = decls
  distinct : (decls.map Decl.name).Nodup
  ready : s.Ready decls
  names : ∃ m x s₁, Registered decls m x s₁ ∧ s₁.Exports decls ∧ s₁.Learns s
  structs : ∀ i ∈ items, ∀ d, i.decl = .struct d → s.Decided i.failed d
  functions : ∀ i ∈ items, ∀ f, i.decl = .function f → s.Signed (moduleListing decls) i.failed f

section

variable {options : Options} {decls : List Decl} {items : List Item} {p : Progress}

theorem preparation_concludes (hcontinue : options.continueOnError = true) (hparsed : Parsed decls)
    (hdistinct : (decls.map Decl.name).Nodup) (hready : p.store.Ready decls)
    (hrun : Phase.runAll options Phase.preparation (decls.map ({ decl := · })) { store := {} } = .ok (items, p)) :
    Concluded decls items p.store := by
  obtain ⟨items₁, p₁, hrun₁, h₁⟩ := Phase.run_ends (Exporting options decls)
    (fun _ _ _ _ => Exporting.step hcontinue hparsed hdistinct)
    ⟨.start options decls, _, _, rfl, rfl, fun _ => rfl⟩
  have hitems₁ : items₁.map (·.decl) = decls := by simpa using h₁.registering.items
  obtain ⟨m, x, hregistered⟩ := h₁.registering.registered (h₁.registering.accounted.running hcontinue)
  rw [hitems₁] at hregistered
  have huntried : ∀ i ∈ items₁, i.failed = false := h₁.registering.distinct hdistinct
  -- the first phase registers functions, it gives none of them a type
  have hunsigned : ∀ f, p₁.store.Unsigned f := fun f => by
    unfold Store.Unsigned
    rcases hregistered.functions f.header.span with hnew | ⟨hnew, -⟩ <;> rw [hnew] <;> exact ⟨rfl, rfl⟩
  have hunderway := h₁.registering.underway hparsed
  obtain ⟨_, _, hrun₂', -, -, hlearns₂⟩ := (studies_structs options decls).run hunderway
  obtain ⟨items₂, p₂, hrun₂, h₂⟩ := Phase.run_ends (Unsigning options decls) (fun _ _ _ _ => Unsigning.step hcontinue)
    ⟨⟨hunderway, hitems₁, huntried, by simp⟩, fun i hi f _ => ⟨huntried i hi, hunsigned f⟩⟩
  cases hrun₂.symm.trans hrun₂'
  have hunderway₂ := h₂.deciding.underway
  rw [List.append_nil] at hunderway₂
  obtain ⟨_, _, hrun₃', -, -, hlearns₃⟩ := (studies_signatures options hparsed).run hunderway₂
  obtain ⟨items₃, p₃, hrun₃, h₃⟩ := Phase.run_ends (Concluding options decls)
    (fun _ _ _ _ => Concluding.step hcontinue hparsed)
    ⟨hunderway₂, by simpa using h₂.deciding.items, fun i hi => h₂.deciding.decided i hi,
      fun i hi => h₂.functions i (List.mem_append_left _ hi), by simp⟩
  cases hrun₃.symm.trans hrun₃'
  simp only [Phase.preparation, Phase.runAll, hrun₁, ok_bind, hrun₂, hrun₃] at hrun
  cases hrun
  have hnames := hlearns₂.trans hlearns₃
  exact ⟨by simpa using h₃.items, hdistinct, hready, ⟨m, x, p₁.store, hregistered, hitems₁ ▸ h₁.exports, hnames⟩,
    fun i hi => h₃.structs i (List.mem_append_left _ hi), h₃.signed⟩

end

/-! ### What is known of declarations -/

/-- If no name is taken twice, every declaration has its name. -/
theorem Decl.owns_of_distinct {decls : List Decl} {d : Decl}
    (hdistinct : (decls.map Decl.name).Nodup) (hd : d ∈ decls) :
    d.Owns decls := by
  cases hfind : decls.find? (·.name = d.name) with
  | none => simpa using List.find?_eq_none.mp hfind d hd
  | some e =>
    have hname : e.name = d.name := by simpa using List.find?_some hfind
    obtain rfl := List.inj_on_of_nodup_map hdistinct (List.mem_of_find?_eq_some hfind) hd hname
    exact hfind

namespace Concluded

variable {decls : List Decl} {items : List Item} {s : Store} (h : Concluded decls items s)

include h

theorem sound : s.Sound (moduleListing decls) := h.ready.resting.sound

theorem owns {d : Decl} (hd : d ∈ decls) : d.Owns decls := d.owns_of_distinct h.distinct hd

theorem exists_item {d : Decl} (hd : d ∈ decls) : ∃ i ∈ items, i.decl = d := List.mem_map.mp (h.decls_eq ▸ hd)

/-- A struct that is listed among the types is one of the module. -/
theorem struct_mem {t : TypeId} {d : StructDecl} {state : StructState} (he : s.typeAt? t = some (.struct d state)) :
    .struct d ∈ decls ∧ s.structs.find? d.span = some ⟨t, FrameId.module⟩ := by
  obtain ⟨hr, hscope⟩ := h.sound.types.registered h.distinct t d state he
  exact ⟨(mem_of_moduleScope hscope).1, hr⟩

/-- The state of a struct that is listed among the types is told by whether the struct is doomed. -/
theorem struct_state {t : TypeId} {d : StructDecl} {state : StructState} (he : s.typeAt? t = some (.struct d state)) :
    (d.Doomed (moduleScope decls) ∧ ∃ why, state = .failed why) ∨
      ¬d.Doomed (moduleScope decls) ∧ ∃ fields, state = .resolved fields ∧ fields.map (·.1) = d.fields.map (·.name) ∧
        s.Wrote (moduleScope decls) fields d.fields := by
  obtain ⟨hd, hr⟩ := h.struct_mem he
  have hknown := h.ready.known_struct hd hr
  rcases h.ready.closed hknown he d state rfl with ⟨fields, rfl⟩ | ⟨why, rfl⟩
  · obtain ⟨-, hnames, -, hfree⟩ := h.sound.types.resolved t d fields he
    exact .inr ⟨hfree trivial, fields, rfl, hnames, h.sound.types.written trivial t d fields he⟩
  · exact .inl ⟨(h.sound.types.failed t d why he).2 trivial, why, rfl⟩

/-- A struct has failed just if it is doomed. -/
theorem struct_failed {i : Item} {d : StructDecl} (hi : i ∈ items) (hd : i.decl = .struct d) :
    i.failed = true ↔ d.Doomed (moduleScope decls) := by
  obtain ⟨t, state, -, he, hdecided⟩ := h.structs i hi d hd
  cases hfailed : i.failed with
  | true =>
    rw [hfailed] at hdecided
    obtain ⟨why, rfl⟩ : ∃ why, state = .failed why := hdecided
    exact iff_of_true rfl ((h.sound.types.failed t d why he).2 trivial)
  | false =>
    rw [hfailed] at hdecided
    obtain ⟨fields, rfl⟩ : ∃ fields, state = .resolved fields := hdecided
    exact iff_of_false nofun ((h.sound.types.resolved t d fields he).2.2.2 trivial)

/-- A function has failed just if a name in its declared types is to blame. -/
theorem function_failed {i : Item} {f : FunctionDecl} (hi : i ∈ items) (hf : i.decl = .function f) :
    i.failed = true ↔ ¬Fine (moduleListing decls) f.header.prototype.occurrences := by
  have hsigned := h.functions i hi f hf
  cases hfailed : i.failed with
  | true =>
    rw [hfailed] at hsigned
    exact iff_of_true rfl hsigned.2.2
  | false =>
    rw [hfailed] at hsigned
    obtain ⟨-, -, -, hfine⟩ := hsigned
    exact iff_of_false nofun fun hunfine => hunfine hfine

/-- What is on record about a function. -/
theorem function_record {i : Item} {f : FunctionDecl} (hi : i ∈ items) (hf : i.decl = .function f) :
    if i.failed
      then (s.function f.header.span).variableType = some .empty ∧ (s.function f.header.span).signature = none ∧
      ∃ why, (s.function f.header.span).failure = some why
    else ∃ sig, (s.function f.header.span).variableType = some (.owned sig) ∧
      (s.function f.header.span).signature = some sig ∧
      s.Denotes sig (f.header.prototype.term (moduleScope decls)) := by
  have howns := h.owns (h.decls_eq ▸ List.mem_map_of_mem hi : i.decl ∈ decls)
  rw [hf] at howns
  obtain ⟨holder, hholder⟩ := Option.isSome_iff_exists.mp (h.ready.resting.functions f howns)
  have hvariable := h.sound.functions.variableType _ holder hholder
  have hsigned := h.functions i hi f hf
  cases hfailed : i.failed with
  | true =>
    rw [hfailed] at hsigned
    obtain ⟨hnone, hwhy, -⟩ := hsigned
    rcases hvariable with ⟨rfl, -⟩ | ⟨sig, -, hsig⟩
    · exact ⟨hholder, hnone, hwhy⟩
    · cases hnone.symm.trans hsig
  | false =>
    rw [hfailed] at hsigned
    obtain ⟨sig, hsig, hdenotes, -⟩ := hsigned
    rcases hvariable with ⟨-, hnone⟩ | ⟨sig', rfl, hsig'⟩
    · cases hnone.symm.trans hsig
    · cases hsig.symm.trans hsig'
      exact ⟨sig, hholder, hsig, hdenotes⟩

end Concluded

/-! ### What names mean in frames -/

/-- The variable that a declaration declares. -/
def Decl.variable? : Decl → Option Variable
  | .struct _ => none
  | .function f => some f.header.binding

/-- A frame gives a declaration for a name, or nothing. -/
structure Frame.Gives (s : Store) (f : Frame) (name : String) (d : Option Decl) : Prop where
  value : f.findVariable name = d.bind Decl.variable?
  struct : ∀ A, d = some (.struct A) → ∃ t, f.findType name = some t ∧ s.Denotes t (.struct A.name)
  other : (∀ A, d ≠ some (.struct A)) → f.findType name = none

/-- The functions of a module are found by their names. -/
private theorem find?_moduleFunctions (decls : List Decl) (name : String) :
    (moduleFunctions decls).find? (·.name = name) = (decls.find? (·.name = name)).bind Decl.variable? := by
  cases hfind : (moduleFunctions decls).find? (·.name = name) with
  | some v =>
    obtain rfl : v.name = name := by simpa using List.find?_some hfind
    obtain ⟨-, f, rfl, hf⟩ := mem_functionsBehind (List.mem_of_find?_eq_some hfind)
    rw [hf]
    rfl
  | none =>
    cases hdecl : decls.find? (·.name = name) with
    | none => rfl
    | some d =>
      cases d with
      | struct => rfl
      | function f =>
        have hname : (Decl.function f).name = name := by simpa using List.find?_some hdecl
        obtain rfl : f.header.name = name := hname
        have hmem := binding_mem_functionsBehind List.not_mem_nil hdecl
        simpa [Header.binding] using List.find?_eq_none.mp hfind _ hmem

section

variable {decls : List Decl} {m x : Frame} {s : Store} {name : String}

private theorem Registered.gives (h : Registered decls m x s) : m.Gives s name (decls.find? (·.name = name)) where
  value := by rw [Frame.findVariable, h.values, lookup_named, find?_moduleFunctions]
  struct A hA := by
    obtain ⟨t, ht, he, hr⟩ := h.structNames name A hA
    exact ⟨t, ht, .struct he hr⟩
  other := h.otherNames name

private theorem Frame.Gives.grow {f : Frame} {d : Option Decl} {s' : Store} (h : f.Gives s name d) (hg : s.GrowsTo s') :
    f.Gives s' name d :=
  { h with
    struct := fun A hA => by
      obtain ⟨t, ht, hdenotes⟩ := h.struct A hA
      exact ⟨t, ht, hg.denotes hdenotes⟩ }

/-- For others a name means what it does in the module, if that is exported. -/
private theorem Frame.Exports.gives (h : m.Exports decls x) (hm : m.Gives s name (decls.find? (·.name = name))) :
    x.Gives s name ((decls.find? (·.name = name)).filter Decl.exported) := by
  have hname := h name
  cases hfind : decls.find? (·.name = name) with
  | none =>
    rw [hfind] at hname
    obtain ⟨hvalue, htype⟩ := Frame.agrees_of_absent (f := {}) rfl hname
    exact ⟨hvalue, nofun, fun _ => htype⟩
  | some d =>
    rw [hfind] at hm hname
    cases hexported : d.exported with
    | false =>
      have hnone : (some d).filter Decl.exported = none := by simp [hexported]
      have habsent : x.has name = false := by simpa [hexported] using hname
      obtain ⟨hvalue, htype⟩ := Frame.agrees_of_absent (f := {}) rfl habsent
      rw [hnone]
      exact ⟨hvalue, nofun, fun _ => htype⟩
    | true =>
      have hsome : (some d).filter Decl.exported = some d := by simp [hexported]
      obtain ⟨hvalue, htype⟩ : m.Agrees x name := by simpa [hexported] using hname
      rw [hsome]
      exact ⟨hvalue.trans hm.value, fun A hA => htype ▸ hm.struct A hA, fun hA => htype.trans (hm.other hA)⟩

/-- The frames of a module, and what names mean in them. -/
theorem Concluded.frames {items : List Item} (h : Concluded decls items s) :
    ∃ m x, s.frames = ⟨[{ types := Frames.builtinTypes }, m, x]⟩ ∧ m.outer = [FrameId.builtin] ∧ x.outer = [] ∧
      (∀ name, m.Gives s name (decls.find? (·.name = name))) ∧
      ∀ name, x.Gives s name ((decls.find? (·.name = name)).filter Decl.exported) := by
  obtain ⟨m, x, s₁, hregistered, ⟨m', x', hm, hx, hexports⟩, hlearns⟩ := h.names
  cases hregistered.frame_module.symm.trans hm
  cases hregistered.frame_exported.symm.trans hx
  have hgives : ∀ name, m.Gives s name (decls.find? (·.name = name)) :=
    fun _ => hregistered.gives.grow hlearns.toGrowsTo
  exact ⟨m, x, hlearns.frames_eq.trans hregistered.frames, hregistered.outer, hregistered.exportedOuter, hgives,
    fun name => hexports.gives (hgives name)⟩

end

end RainCheck

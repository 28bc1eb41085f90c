import RainCheck.Proofs.Calls
import RainCheck.Proofs.RevisitingExpr

/-!
# Declarations in any order

The phases can be applied to the declarations of a module one by one.  No call raises a fault and every function that is
registered has the type it is resolved to, as long as a function is registered before anything else is asked of it
(`Module.calls_of_registersFirst`).
* (structs) A struct can be registered in a store in which others are resolved already (`Store.Enlists`).
* (steps) One call keeps what is known about a module (`Store.Serves`).
* (order) If a function is resolved first and registered then, its variable is left without a type, and to check a
  function that mentions it is a fault.
-/

namespace RainCheck

open RainCheck.Action

/-! ### One more struct -/

/-- A store in which one struct more may be known, and have a name. -/
structure Store.Enlists (s s' : Store) : Prop where
  entries : ∀ t e, s.typeAt? t = some e → s'.typeAt? t = some e
  fresh : ∀ t e, s'.typeAt? t = some e → s.typeAt? t = some e ∨ ∃ d, e = .struct d .unresolved
  structs : ∀ key r, s.structs.find? key = some r → s'.structs.find? key = some r
  functions : s'.functions = s.functions
  resolving : s'.types.resolving = s.types.resolving
  size : s'.frames.size = s.frames.size
  frames : ∀ fr f', s'.frame? fr = some f' → ∃ f, s.frame? fr = some f ∧ f'.outer = f.outer ∧ f'.values = f.values ∧
    ∀ p ∈ f'.types, p ∈ f.types ∨ s'.Known p.2

namespace Store.Enlists

variable {L : Listing} {s s' : Store} {t : TypeId}

private theorem known (h : s.Enlists s') (ht : s.Known t) : s'.Known t := by
  obtain ⟨e, he, hregistered⟩ := ht
  exact ⟨e, h.entries t e he, fun decl state heq => h.structs _ _ (hregistered decl state heq)⟩

/-- What is known of a type that is listed already does not change. -/
private theorem entry (h : s.Enlists s') (ht : s.Known t) {e : TypeEntry} (he : s'.typeAt? t = some e) :
    s.typeAt? t = some e := by
  obtain ⟨e', he', -⟩ := ht
  rw [h.entries t e' he'] at he
  rwa [← Option.some.inj he]

private theorem settled (h : s.Enlists s') (ht : s.Settled t) : s'.Settled t :=
  ⟨h.known ht.1, fun decl state he => ht.2 decl state (h.entry ht.1 he)⟩

private theorem function (h : s.Enlists s') (key : Span) : s'.function key = s.function key := by
  unfold Store.function
  rw [h.functions]

private theorem declares (h : s.Enlists s') {v : Variable} (hv : s.Declares L v) : s'.Declares L v := by
  unfold Store.Declares at hv ⊢
  split
  · rename_i declared hkind
    rw [hkind] at hv
    exact ⟨hv.1, hv.2.1, by rw [h.function]; exact hv.2.2⟩
  · rename_i hkind
    split at hv
    · rename_i declared hfunction
      exact absurd hfunction (hkind declared)
    · obtain ⟨t, ht, hsettled⟩ := hv
      exact ⟨t, ht, h.settled hsettled⟩

private theorem loads {u : TypeId} (h : s.Enlists s') (hload : s.Loads t u) : s'.Loads t u := by
  unfold Store.Loads Types.load at hload ⊢
  cases hget : s.types.get t with
  | error f => simp [hget] at hload
  | ok e =>
    rw [hget] at hload
    rwa [Store.get_of_entry (h.entries t e (Store.entry_of_get hget))]

private theorem typed {i : Info} (h : s.Enlists s') (hi : i.Typed s t) : i.Typed s' t := by
  refine ⟨hi.type, h.settled hi.settled, ?_, hi.value⟩
  obtain ⟨e, hget, he⟩ := hi.settled.1.get
  have hreference := hi.reference
  unfold Types.isReference at hreference ⊢
  rwa [Store.get_of_entry (h.entries t e he), ← hget]

private theorem shaped {e : Expr} (h : s.Enlists s') (he : e.Shaped L s) : e.Shaped L s' := by
  cases e with
  | identifier =>
    intro t ht
    obtain ⟨v, hv, htype⟩ := he t ht
    refine ⟨v, hv, ?_⟩
    unfold Store.typeOf at htype ⊢
    rwa [h.function]
  | member =>
    intro t ht
    obtain ⟨u, hu, w, decl, fields, name, hload, hstruct, hfield⟩ := he t ht
    exact ⟨u, hu, w, decl, fields, name, h.loads hload, h.entries w _ hstruct, hfield⟩
  | _ => exact he

private theorem upright {f : FunctionDecl} (h : s.Enlists s') (hf : f.Upright L s) : f.Upright L s' where
  info := ⟨fun t ht => h.typed (hf.info.typed t ht), hf.info.value⟩
  header := hf.header
  body n hn := ⟨⟨fun t ht => h.typed ((hf.body n hn).info.typed t ht), (hf.body n hn).info.value⟩,
    h.shaped (hf.body n hn).shaped⟩

/-- What is not a struct that waits was there before. -/
private theorem old {t : TypeId} {e : TypeEntry} (h : s.Enlists s') (he : s'.typeAt? t = some e)
    (hne : ∀ d, e ≠ .struct d .unresolved) : s.typeAt? t = some e :=
  (h.fresh _ _ he).resolve_right fun ⟨d, hd⟩ => hne d hd

private theorem typesSound (h : s.Enlists s') (hs : s.TypesSound L)
    (hL : ∀ span, L.isOtherName span) (hclosed : ¬L.closed)
    (hdistinct : ¬L.distinct) : s'.TypesSound L where
  primitives t name :=
    ⟨fun he => (hs.primitives t name).mp (h.old he (by simp)),
      fun hname => h.entries _ _ ((hs.primitives t name).mpr hname)⟩
  references t inner he := by
    obtain ⟨hlt, hknown⟩ := hs.references t inner (h.old he (by simp))
    exact ⟨hlt, h.known hknown⟩
  functionTypes t params returns he := by
    obtain ⟨hparams, hlt, hreturns⟩ := hs.functionTypes t params returns (h.old he (by simp))
    exact ⟨fun p hp => ⟨(hparams p hp).1, h.settled (hparams p hp).2⟩, hlt, h.settled hreturns⟩
  listed t decl state he := by
    rcases h.fresh t _ he with he | -
    · exact hs.listed t decl state he
    · exact StructDecl.lists hL decl
  resolved t decl fields he := by
    obtain ⟨hfields, hrest⟩ := hs.resolved t decl fields (h.old he (by simp))
    exact ⟨fun f hf => h.settled (hfields f hf), hrest⟩
  written hc := absurd hc hclosed
  failed t decl why he := hs.failed t decl why (h.old he (by simp))
  resolving t := by
    rw [h.resolving, hs.resolving t]
    exact ⟨fun ⟨decl, he⟩ => ⟨decl, h.entries _ _ he⟩, fun ⟨decl, he⟩ => ⟨decl, h.old he (by simp)⟩⟩
  path hc := absurd hc hclosed
  nodup := by
    rw [h.resolving]
    exact hs.nodup
  held t ht := by
    rw [h.resolving] at ht
    exact h.known (hs.held t ht)
  once t t' e he he' hne := by
    have hstruct : ∀ d, e ≠ .struct d .unresolved := by
      rintro d rfl
      cases hne
    exact hs.once t t' e (h.old he hstruct) (h.old he' hstruct) hne
  registered hd := absurd hd hdistinct

private theorem framesSound (h : s.Enlists s') (hs : s.FramesSound L) (hclosed : ¬L.closed) : s'.FramesSound L where
  three_le := by
    rw [h.size]
    exact hs.three_le
  outer fr f hf o ho := by
    obtain ⟨f₀, hf₀, houter, -⟩ := h.frames fr f hf
    exact hs.outer fr f₀ hf₀ o (houter ▸ ho)
  types fr f name t hf ht := by
    obtain ⟨f₀, hf₀, -, -, htypes⟩ := h.frames fr f hf
    rcases htypes _ ht with ht | ht
    · exact h.known (hs.types fr f₀ name t hf₀ ht)
    · exact ht
  values fr f name v hf hv := by
    obtain ⟨f₀, hf₀, -, hvalues, -⟩ := h.frames fr f hf
    exact h.declares (hs.values fr f₀ name v hf₀ (hvalues ▸ hv))
  once fr f hf := by
    obtain ⟨f₀, hf₀, -, hvalues, -⟩ := h.frames fr f hf
    exact hvalues ▸ hs.once fr f₀ hf₀
  scope hc := absurd hc hclosed

private theorem functionsSound (h : s.Enlists s') (hs : s.FunctionsSound L) : s'.FunctionsSound L where
  signature key sig hsig := by
    obtain ⟨params, returns, he, hlen⟩ := hs.signature key sig (h.function key ▸ hsig)
    exact ⟨params, returns, h.entries _ _ he, hlen⟩
  variableType key t ht := by
    rw [h.function]
    exact hs.variableType key t (h.function key ▸ ht)
  failure key why hwhy := hs.failure key why (h.function key ▸ hwhy)

/-- Where structs may be missing, one that is new does no harm. -/
private theorem sound (h : s.Enlists s') (hs : s.Sound L) (hL : ∀ span, L.isOtherName span) (hclosed : ¬L.closed)
    (hdistinct : ¬L.distinct) : s'.Sound L :=
  ⟨h.typesSound hs.types hL hclosed hdistinct, h.framesSound hs.frames hclosed, h.functionsSound hs.functions⟩

private theorem steady (h : s.Enlists s') (hs : s.Steady L) (hL : ∀ span, L.isOtherName span) (hclosed : ¬L.closed)
    (hdistinct : ¬L.distinct) : s'.Steady L where
  sound := h.sound hs.sound hL hclosed hdistinct
  idle := (congrArg Stack.items h.resolving).trans hs.idle
  tidy key hkey := by
    rw [h.function] at hkey ⊢
    exact hs.tidy key hkey

end Store.Enlists

/-! ### Between two calls -/

/-- What holds of the store between two calls on the declarations of a module. -/
structure Store.Serves (L : Listing) (decls : List Decl) (s : Store) : Prop where
  steady : s.Steady L
  records : ∀ key r, s.structs.find? key = some r → s.Known r.type
  taken : ∀ f name, s.frame? FrameId.module = some f → f.has name = true → ∃ d ∈ decls, d.name = name ∧ d.Noted s
  functions : ∀ f, .function f ∈ decls → f.Upright L s

namespace Store.Enlists

variable {s s' : Store} {d : StructDecl} {f : Frame}

private theorem addStruct : s.Enlists (s.addStruct d) where
  entries _ _ he := entry_addType.mpr (.inl he)
  fresh _ _ he := (entry_addType.mp he).imp_right fun h => ⟨d, h.2⟩
  structs _ _ hr := hr
  functions := rfl
  resolving := rfl
  size := rfl
  frames _ f hf := ⟨f, hf, rfl, rfl, fun _ hp => .inl hp⟩

private theorem frame?_addTypeName {fr : FrameId} {name : String} {t : TypeId}
    (hf : s.frame? fr = some f) (g : FrameId) :
    (s.addTypeName fr f name t).frame? g =
      if g = fr then some { f with types := f.types ++ [(name, t)] } else s.frame? g := by
  unfold frame? addTypeName
  rw [List.getElem?_set]
  by_cases h : fr = g
  · subst h
    simp only [if_true]
    exact if_pos (frame_lt_size hf)
  · rw [if_neg h, if_neg (Ne.symm h)]

/-- A type that can be referred to gets a name. -/
private theorem addTypeName {fr : FrameId} {name : String} {t : TypeId} (hf : s.frame? fr = some f) (ht : s.Known t) :
    s.Enlists (s.addTypeName fr f name t) where
  entries _ _ he := he
  fresh _ _ he := .inl he
  structs _ _ hr := hr
  functions := rfl
  resolving := rfl
  size := List.length_set
  frames g f' hf' := by
    rw [frame?_addTypeName hf] at hf'
    split at hf'
    · rename_i heq
      cases hf'
      refine ⟨f, heq ▸ hf, rfl, rfl, fun p hp => ?_⟩
      rcases List.mem_append.mp hp with hp | hp
      · exact .inl hp
      · rw [List.mem_singleton.mp hp]
        exact .inr ht
    · exact ⟨f', hf', rfl, rfl, fun _ hp => .inl hp⟩

/-- A struct is on record from now on. -/
private theorem withStruct {r : StructRecord} (hnew : s.structs.find? d.span = none) :
    s.Enlists (s.withStruct d.span r) where
  entries _ _ he := he
  fresh _ _ he := .inl he
  structs key r' hr := by
    rw [Store.withStruct, Records.find?_insert, if_neg, hr]
    rintro rfl
    rw [hnew] at hr
    cases hr
  functions := rfl
  resolving := rfl
  size := rfl
  frames _ f hf := ⟨f, hf, rfl, rfl, fun _ hp => .inl hp⟩

private theorem noted {d : Decl} (h : s.Enlists s') (hd : d.Noted s) : d.Noted s' := by
  cases d with
  | struct d =>
    obtain ⟨r, hr⟩ := Option.isSome_iff_exists.mp hd
    rw [Decl.Noted, h.structs _ r hr]
    rfl
  | function f =>
    rw [Decl.Noted, h.function]
    exact hd

end Store.Enlists

namespace Store.Serves

variable {L : Listing} {decls : List Decl} {s s' : Store} {d : StructDecl}

/-- After a struct is registered whose record, if it is new, is one of a known type, and so are the names. -/
private theorem enlist (h : s.Serves L decls) (hL : ∀ span, L.isOtherName span) (hclosed : ¬L.closed)
    (hdistinct : ¬L.distinct)
    (henlists : s.Enlists s')
    (hrecords : ∀ key r, s'.structs.find? key = some r → s.structs.find? key = some r ∨ s'.Known r.type)
    (htaken : ∀ f name, s'.frame? FrameId.module = some f → f.has name = true →
      (∃ f₀, s.frame? FrameId.module = some f₀ ∧ f₀.has name = true) ∨ ∃ d ∈ decls, d.name = name ∧ d.Noted s') :
    s'.Serves L decls where
  steady := henlists.steady h.steady hL hclosed hdistinct
  records key r hr := (hrecords key r hr).elim (fun hr => henlists.known (h.records key r hr)) id
  taken f name hf hhas := by
    rcases htaken f name hf hhas with ⟨f₀, hf₀, hhas₀⟩ | hnew
    · obtain ⟨d, hd, hname, hnoted⟩ := h.taken f₀ name hf₀ hhas₀
      exact ⟨d, hd, hname, henlists.noted hnoted⟩
    · exact hnew
  functions f hf := henlists.upright (h.functions f hf)

/-- After a step in which nothing is registered in the module. -/
private theorem grow (h : s.Serves L decls) (hs' : s'.Steady L) (hg : s.GrowsTo s')
    (hmodule : s'.frame? FrameId.module = s.frame? FrameId.module) : s'.Serves L decls where
  steady := hs'
  records key r hr := hg.known (h.records key r (hg.structs ▸ hr))
  taken f name hf hhas := by
    obtain ⟨d, hd, hname, hnoted⟩ := h.taken f name (hmodule ▸ hf) hhas
    exact ⟨d, hd, hname, hnoted.grow hg⟩
  functions f hf := (h.functions f hf).grow hg

private theorem step (h : s.Serves L decls) (hs' : s'.Steady L) (hsteps : s.StepsTo s') : s'.Serves L decls :=
  h.grow hs' hsteps.toGrowsTo (hsteps.global _ (by decide))

/-- A name of the module belongs to a declaration that is registered. -/
private theorem fresh {f : Frame} {g : FunctionDecl} (h : s.Serves L decls) (hnodup : (decls.map Decl.name).Nodup)
    (hf : s.frame? FrameId.module = some f) (hg : .function g ∈ decls) (hnew : ¬(Decl.function g).Noted s) :
    f.has g.header.name = false := by
  cases hhas : f.has g.header.name with
  | false => rfl
  | true =>
    obtain ⟨d, hd, hname, hnoted⟩ := h.taken f _ hf hhas
    rw [List.inj_on_of_nodup_map hnodup hd hg hname] at hnoted
    exact absurd hnoted hnew

/-- The parameters and the body of a function may be given types. -/
private theorem replace {index : Nat} {f f' : FunctionDecl} (h : s.Serves L decls)
    (hf : decls[index]? = some (.function f))
    (hf' : f'.Upright L s) (hheader : f'.header = { f.header with params := f'.header.params }) :
    s.Serves L (decls.set index (.function f')) where
  steady := h.steady
  records := h.records
  taken fr name hfr hhas := by
    obtain ⟨d, hd, hname, hnoted⟩ := h.taken fr name hfr hhas
    obtain ⟨i, hi⟩ := List.mem_iff_getElem?.mp hd
    by_cases hindex : index = i
    · subst hindex
      cases hf.symm.trans hi
      refine ⟨.function f', List.mem_of_getElem? (List.getElem?_set_self (List.getElem?_eq_some_iff.mp hf).1), ?_, ?_⟩
      · rw [← hname]
        change f'.header.name = f.header.name
        rw [hheader]
      · rw [Decl.Noted, hheader]
        exact hnoted
    · exact ⟨d, List.mem_of_getElem? ((List.getElem?_set_ne hindex).trans hi), hname, hnoted⟩
  functions g hg := by
    rcases List.mem_or_eq_of_mem_set hg with hg | hg
    · exact h.functions g hg
    · cases hg
      exact hf'

end Store.Serves

/-- What holds between two calls, when the declarations that were registered before are registered still. -/
structure Store.Upkeeps (L : Listing) (decls : List Decl) (s s' : Store) : Prop where
  serves : s'.Serves L decls
  noted : ∀ d ∈ decls, d.Noted s → d.Noted s'

private theorem Store.Upkeeps.trans {L : Listing} {decls : List Decl} {s s' s'' : Store} (h : s.Upkeeps L decls s')
    (h' : s'.Upkeeps L decls s'') : s.Upkeeps L decls s'' :=
  ⟨h'.serves, fun d hd hnoted => h'.noted d hd (h.noted d hd hnoted)⟩

/-- An action keeps what holds between two calls; it raises no fault. -/
def Action.Upholds (L : Listing) (decls : List Decl) (s : Store) {α : Type} (a : Action α)
    (P R : Store → Prop) : Prop :=
  a.Ends s (fun _ s' => s.Upkeeps L decls s' ∧ P s') (fun _ s' => s.Upkeeps L decls s' ∧ R s')

namespace Action

variable {α : Type} {L : Listing} {decls : List Decl} {s : Store} {P : α → Store → Prop}

private theorem Steps.upholds {a : Action α} (hs : s.Serves L decls) (h : Steps L s a P) :
    Upholds L decls s a (fun _ => True) fun _ => True := by
  refine Ends.mono h ?_ ?_
  · rintro x s' ⟨hs', hsteps, -⟩
    exact ⟨⟨hs.step hs' hsteps, fun _ _ hd => hd.grow hsteps.toGrowsTo⟩, trivial⟩
  · rintro d s' ⟨hs', hsteps⟩
    exact ⟨⟨hs.step hs' hsteps, fun _ _ hd => hd.grow hsteps.toGrowsTo⟩, trivial⟩

/-- A function is registered in the module, where its name is new. -/
private theorem upholds_registerFunction {f : FunctionDecl} (hL : ∀ span, L.isOtherName span) (hs : s.Serves L decls)
    (hnodup : (decls.map Decl.name).Nodup) (hf : .function f ∈ decls) :
    Upholds L decls s (registerFunction FrameId.module f.header) (Decl.function f).Noted (Decl.function f).Noted := by
  unfold Upholds registerFunction
  rw [ends_bind, ends_get]
  split
  -- a function that is registered is left as it is
  · rename_i hnoted
    exact ⟨⟨hs, fun _ _ h => h⟩, hnoted⟩
  rename_i hunnoted
  have hnew : s.function f.header.span = {} := hs.steady.tidy _ (by simpa using hunnoted)
  have hlisted := (hs.functions f hf).header.lists hL
  obtain ⟨m, -, hm⟩ := Store.get_frame hs.steady.sound.frames.module_lt
  have hhas : m.has f.header.binding.name = false := hs.fresh hnodup hm hf hunnoted
  have hrecord : (s.addVariable FrameId.module m f.header.binding).function f.header.span = {} := hnew
  simp only [ends_bind, ends_declare hm, hhas, Bool.false_eq_true, if_false, ends_updateFunction, hrecord]
  change Ends _ (s.register FrameId.module m f.header) _ _
  obtain ⟨hmoves, hdeclares⟩ := Store.Moves.register hs.steady.sound hm hhas hlisted hnew
  generalize hs₁ : s.register FrameId.module m f.header = s₁ at hmoves hdeclares ⊢
  have hg := hmoves.toExtends.toGrowsTo
  have hnoted : (Decl.function f).Noted s₁ := hdeclares.2.2
  -- the only name that is new in the frame is that of the function itself
  have hserves : s₁.Serves L decls := by
    refine ⟨hs.steady.move hmoves, fun key r hr => hg.known (hs.records key r (hg.structs ▸ hr)),
      fun g name hg' hname => ?_, fun g hg' => (hs.functions g hg').grow hg⟩
    have hframe :
        s₁.frame? FrameId.module = some { m with values := m.values ++ [(f.header.name, f.header.binding)] } := by
      rw [← hs₁]
      exact (Store.frame?_addVariable hm FrameId.module).trans (if_pos rfl)
    rw [hframe] at hg'
    cases hg'
    rcases (Frame.has_addValue m _ _ name).mp hname with hname | rfl
    · obtain ⟨d, hd, hdname, hdnoted⟩ := hs.taken m name hm hname
      exact ⟨d, hd, hdname, hdnoted.grow hg⟩
    · exact ⟨.function f, hf, rfl, hnoted⟩
  split
  -- an exported function is declared in the frame of the exports too, which leaves that of the module
  · obtain ⟨x, -, hx⟩ := Store.get_frame (Nat.lt_of_lt_of_le (by decide : FrameId.exported < 3)
      hserves.steady.sound.frames.three_le)
    have hdeclare :
        Moves L FrameId.exported [] [f.header.binding.bare] s₁ (declare FrameId.exported f.header.binding) _ _ :=
      moves_declare hserves.steady.sound (Store.frame_lt_size hx) hdeclares
    have hmove : ∀ {s₂ : Store}, s₁.Moves L FrameId.exported [] s₂ → s₂.Serves L decls ∧ s₁.GrowsTo s₂ := by
      intro s₂ hmoves₂
      have hg₂ := hmoves₂.toExtends.toGrowsTo
      obtain ⟨m₁, -, hm₁⟩ := Store.get_frame hserves.steady.sound.frames.module_lt
      refine ⟨hserves.grow (hserves.steady.move hmoves₂) hg₂ ?_, hg₂⟩
      rw [hmoves₂.leaves _ m₁ (by decide) hm₁, hm₁]
    refine hdeclare.mono ?_ ?_
    · rintro _ s₂ ⟨hmoves₂, -⟩
      obtain ⟨hserves₂, hg₂⟩ := hmove hmoves₂
      exact ⟨⟨hserves₂, fun _ _ hd => (hd.grow hg).grow hg₂⟩, hnoted.grow hg₂⟩
    · rintro why s₂ ⟨hmoves₂, -⟩
      obtain ⟨hserves₂, hg₂⟩ := hmove hmoves₂
      exact ⟨⟨hserves₂, fun _ _ hd => (hd.grow hg).grow hg₂⟩, hnoted.grow hg₂⟩
  · exact ⟨⟨hserves, fun _ _ hd => hd.grow hg⟩, hnoted⟩

private theorem upholds_registerStruct {d : StructDecl} (hL : ∀ span, L.isOtherName span) (hclosed : ¬L.closed)
    (hdistinct : ¬L.distinct) (hs : s.Serves L decls) (hd : .struct d ∈ decls) :
    Upholds L decls s (registerStruct FrameId.module d) (Decl.struct d).Noted fun _ => True := by
  unfold Upholds registerStruct
  rw [ends_bind, ends_get]
  split
  · rename_i hnoted
    exact ⟨⟨hs, fun _ _ h => h⟩, hnoted⟩
  rename_i hunnoted
  have hfresh : s.structs.find? d.span = none := by simpa using hunnoted
  obtain ⟨m, -, hm⟩ := Store.get_frame hs.steady.sound.frames.module_lt
  rw [ends_bind, ends_updateTypes, ends_bind]
  change Ends _ (s.addStruct d) _ _
  have hadd : s.Enlists (s.addStruct d) := .addStruct
  have hserves : (s.addStruct d).Serves L decls :=
    hs.enlist hL hclosed hdistinct hadd (fun _ _ hr => .inl hr) fun f name hf hhas => .inl ⟨f, hf, hhas⟩
  have hm₁ : (s.addStruct d).frame? FrameId.module = some m := hm
  rw [ends_declareType hm₁]
  split
  · exact ⟨⟨hserves, fun _ _ h => hadd.noted h⟩, trivial⟩
  rw [ends_bind, ends_modify]
  -- the struct gets its record before its name, which makes no difference
  change Ends _ (((s.addStruct d).withStruct d.span ⟨s.types.size, FrameId.module⟩).addTypeName FrameId.module m d.name
    s.types.size) _ _
  generalize hs₁ : (s.addStruct d).withStruct d.span ⟨s.types.size, FrameId.module⟩ = s₁
  have hrecord : s₁.structs.find? d.span = some ⟨s.types.size, FrameId.module⟩ := by
    rw [← hs₁, Store.withStruct, Records.find?_insert, if_pos rfl]
  have hknown : s₁.Known s.types.size := by
    refine ⟨.struct d .unresolved, ?_, fun decl state heq => ?_⟩
    · rw [← hs₁]
      exact Store.entry_addType.mpr (.inr ⟨rfl, rfl⟩)
    · cases heq
      exact hrecord
  have hwith : (s.addStruct d).Enlists s₁ := hs₁ ▸ .withStruct hfresh
  have hm₂ : s₁.frame? FrameId.module = some m := hs₁ ▸ hm
  have hname : s₁.Enlists (s₁.addTypeName FrameId.module m d.name s.types.size) := .addTypeName hm₂ hknown
  have hserves₁ : s₁.Serves L decls := by
    refine hserves.enlist hL hclosed hdistinct hwith (fun key r hr => ?_) fun f name hf hhas => .inl ⟨f, ?_, hhas⟩
    · rw [← hs₁, Store.withStruct, Records.find?_insert] at hr
      split at hr
      · cases hr
        exact .inr hknown
      · exact .inl hr
    · rw [← hs₁] at hf
      exact hf
  have hnoted : (Decl.struct d).Noted s₁ := by
    rw [Decl.Noted, hrecord]
    rfl
  have hserves₂ : (s₁.addTypeName FrameId.module m d.name s.types.size).Serves L decls := by
    refine hserves₁.enlist hL hclosed hdistinct hname (fun _ _ hr => .inl hr) fun f name hf hhas => ?_
    rw [Store.Enlists.frame?_addTypeName hm₂, if_pos rfl] at hf
    cases hf
    rcases (Frame.has_addType m _ _ name).mp hhas with hhas | rfl
    · exact .inl ⟨m, hm₂, hhas⟩
    · exact .inr ⟨.struct d, hd, rfl, hname.noted hnoted⟩
  generalize s₁.addTypeName FrameId.module m d.name s.types.size = s₂ at hname hserves₂ ⊢
  have hold : ∀ e ∈ decls, e.Noted s → e.Noted s₂ := fun _ _ he => hname.noted (hwith.noted (hadd.noted he))
  split
  · obtain ⟨x, -, hx⟩ := Store.get_frame (Nat.lt_of_lt_of_le (by decide : FrameId.exported < 3)
      hserves₂.steady.sound.frames.three_le)
    rw [ends_declareType hx]
    split
    · exact ⟨⟨hserves₂, hold⟩, trivial⟩
    have hexport : s₂.Enlists (s₂.addTypeName FrameId.exported x d.name s.types.size) :=
      .addTypeName hx (hname.known hknown)
    refine ⟨⟨hserves₂.enlist hL hclosed hdistinct hexport (fun _ _ hr => .inl hr)
        fun f name hf hhas => .inl ⟨f, ?_, hhas⟩,
      fun e he hnoted => hexport.noted (hold e he hnoted)⟩, hexport.noted (hname.noted hnoted)⟩
    rwa [Store.Enlists.frame?_addTypeName hx, if_neg (by decide)] at hf
  · exact ⟨⟨hserves₂, hold⟩, hname.noted hnoted⟩

/-- A struct is registered, unless it is already, and resolved. -/
private theorem upholds_resolveStruct {d : StructDecl} (hL : ∀ span, L.isOtherName span) (hclosed : ¬L.closed)
    (hdistinct : ¬L.distinct) (hs : s.Serves L decls) (hd : .struct d ∈ decls) :
    Upholds L decls s (resolveStruct FrameId.module d) (fun _ => True) fun _ => True := by
  unfold Upholds resolveStruct
  refine Ends.bind (upholds_registerStruct hL hclosed hdistinct hs hd) ?_
  rintro _ s₁ ⟨hs₁, hnoted⟩
  obtain ⟨r, hr⟩ := Option.isSome_iff_exists.mp hnoted
  rw [ends_bind, ends_get, hr, unwrap_some, ends_bind, ends_lift]
  have hsteady := hs₁.serves.steady
  have hcomplete : Steps L s₁ (complete d.span r.type) _ :=
    (keeps_complete hsteady.sound hsteady.idle (hs₁.serves.records _ r hr)).steps hsteady
  exact Ends.mono (hcomplete.upholds hs₁.serves) (fun _ s₂ h => ⟨hs₁.trans h.1, trivial⟩)
    fun _ s₂ h => ⟨hs₁.trans h.1, trivial⟩

end Action

/-! ### Calls -/

/-- What holds of a module between two calls on its declarations. -/
structure Module.Orderly (L : Listing) (m : Module) : Prop where
  serves : m.store.Serves L m.decls
  distinct : (m.decls.map Decl.name).Nodup

/-- If there is a function at a position, it is registered. -/
def Module.HasRegistered (m : Module) (index : Nat) : Prop :=
  ∀ f, m.decls[index]? = some (.function f) → (Decl.function f).Noted m.store

/-- The answer to a phase that is applied to one declaration of a module. -/
structure Phase.Answers (L : Listing) (decls : List Decl) (phase : Phase) (d : Decl) (s : Store)
    (answer : Decl × Outcome (Option TypeId)) : Prop where
  faultless : ∀ f, answer.2.result ≠ .error (.fault f)
  upkeeps : s.Upkeeps L decls answer.2.store
  registered : phase = .registration → ∀ f, d = .function f → d.Noted answer.2.store
  becomes : answer.1 = d ∨ ∃ f f', d = .function f ∧ answer.1 = .function f' ∧ f'.Upright L answer.2.store ∧
    f'.header = { f.header with params := f'.header.params }

section

variable {L : Listing} {decls : List Decl} {s : Store} {d : Decl}

/-- An action is run on behalf of a declaration. -/
private theorem Action.Upholds.answers {α : Type} {a : Action α} {phase : Phase} {P R : Store → Prop}
    (h : Upholds L decls s a P R)
    (hP : ∀ s', (P s' ∨ R s') → phase = .registration → ∀ f, d = .function f → d.Noted s') (f : α → Option TypeId) :
    Phase.Answers L decls phase d s (d, (do return f (← a) : Action (Option TypeId)).runOn s) := by
  rw [run_map]
  unfold Upholds Ends at h
  rw [runOn_eq]
  rcases hr : a.run.run s with ⟨(why | g) | x, s'⟩ <;> rw [hr] at h
  · exact ⟨nofun, h.1, hP s' (.inr h.2), .inl rfl⟩
  · exact h.elim
  · exact ⟨nofun, h.1, hP s' (.inl h.2), .inl rfl⟩

private theorem Phase.answers_unchanged {phase : Phase} (hs : s.Serves L decls)
    (h : phase = .registration → ∀ f, d = .function f → d.Noted s) :
    Phase.Answers L decls phase d s (d, ⟨.ok none, s⟩) :=
  ⟨nofun, ⟨hs, fun _ _ h => h⟩, h, .inl rfl⟩

/-- The body of a registered function is checked, whatever was found out about it before. -/
private theorem Phase.answers_checkBody {f : FunctionDecl} (options : Options) (hL : ∀ span, L.isOtherName span)
    (hs : s.Serves L decls) (hf : .function f ∈ decls) (hnoted : (Decl.function f).Noted s) :
    Phase.Answers L decls .bodies (.function f) s (Phase.bodies.ask options (.function f) s) := by
  obtain ⟨r, st, hrun⟩ : ∃ r st, (Check.functionWith options FrameId.module f.info f.header f.body
    fun c frame => Check.block c frame f.body).run { store := s } = (r, st) := ⟨_, _, rfl⟩
  have hsteps : Check.Steps L { store := s } (Check.functionWith options FrameId.module f.info f.header f.body
      fun c frame => Check.block c frame f.body) _ :=
    Check.steps_functionWith hL ⟨hs.steady, by rintro _ ⟨⟩⟩ hs.steady.sound.frames.module_lt hnoted (hs.functions f hf)
      fun c fr st hr hb => Check.steps_block hL f.body hr hb
  obtain ⟨hst, hstepsTo, hupright, hheader, -⟩ := (Check.steps_iff hrun).mp hsteps
  simp only [Phase.ask, Phase.checkBody, check_of_run hrun]
  refine ⟨fun g hg => ?_,
    ⟨hs.step hst.store hstepsTo.store, fun _ _ hd => hd.grow hstepsTo.store.toGrowsTo⟩, by rintro ⟨⟩,
    .inr ⟨f, _, rfl, rfl, hupright, hheader⟩⟩
  cases hstop : st.stop with
  | none =>
    rw [hstop] at hg
    cases hg
  | some why =>
    rw [hstop] at hg
    cases hg
    exact hst.faultless g hstop

end

namespace Module

variable {L : Listing} {m : Module} {phase : Phase} {index : Nat} {d : Decl}

/-- A phase can be applied to a declaration of a module at any time, as long as functions are registered first. -/
private theorem Orderly.ask (h : m.Orderly L) (hL : ∀ span, L.isOtherName span) (hclosed : ¬L.closed)
    (hdistinct : ¬L.distinct)
    (options : Options) (hd : m.decls[index]? = some d)
    (hregistered : phase = .registration ∨ phase = .structs ∨ m.HasRegistered index) :
    Phase.Answers L m.decls phase d m.store (phase.ask options d m.store) := by
  have hmem := List.mem_of_getElem? hd
  cases phase with
  | registration =>
    cases d with
    | struct d =>
      have hupholds := upholds_registerStruct hL hclosed hdistinct h.serves hmem
      exact hupholds.answers (fun _ _ _ _ heq => by cases heq) fun _ => none
    | function f =>
      refine (upholds_registerFunction hL h.serves h.distinct hmem).answers (fun s' hs' _ g heq => ?_) fun _ => none
      exact hs'.elim id id
  | structs =>
    cases d with
    | struct d => exact (upholds_resolveStruct hL hclosed hdistinct h.serves hmem).answers (by rintro _ _ ⟨⟩) some
    | function f => exact Phase.answers_unchanged h.serves nofun
  | signatures =>
    cases d with
    | struct d => exact Phase.answers_unchanged h.serves nofun
    | function f =>
      have hnoted : (Decl.function f).Noted m.store := (hregistered.resolve_left nofun).resolve_left nofun f hd
      have hheader := (h.serves.functions f hmem).header
      have hsteady := h.serves.steady
      have hsteps : Steps L m.store (Phase.resolveFunction FrameId.module f) _ :=
        (keeps_signature hsteady.sound hsteady.idle hsteady.sound.frames.module_lt hheader.prototype
          (Listing.lists_cons.mp (hheader.lists hL)).2 hnoted).steps hsteady
      exact (hsteps.upholds h.serves).answers (by rintro _ _ ⟨⟩) some
  | bodies =>
    cases d with
    | struct d => exact Phase.answers_unchanged h.serves nofun
    | function f =>
      exact Phase.answers_checkBody options hL h.serves hmem ((hregistered.resolve_left nofun).resolve_left nofun f hd)

/-- What holds of a module after a phase is applied to the declaration at a position. -/
structure Treated (L : Listing) (m : Module) (phase : Phase) (index : Nat) (m' : Module) : Prop where
  orderly : m'.Orderly L
  keeps : ∀ i, m.HasRegistered i → m'.HasRegistered i
  registers : phase = .registration → m'.HasRegistered index

/-- What is answered about a declaration is written into the module. -/
private theorem Orderly.update {d' : Decl} {outcome : Outcome (Option TypeId)} (h : m.Orderly L)
    (hd : m.decls[index]? = some d)
    (hanswers : Phase.Answers L m.decls phase d m.store (d', outcome)) :
    m.Treated L phase index { m with decls := m.decls.set index d', store := outcome.store } := by
  obtain ⟨hlt, hget⟩ := List.getElem?_eq_some_iff.mp hd
  have hupkeeps := hanswers.upkeeps
  rcases hanswers.becomes with heq | ⟨f, f', rfl, heq, hf', hheader⟩
  · obtain rfl : d' = d := heq
    rw [show m.decls.set index d' = m.decls by rw [← hget, List.set_getElem_self]]
    refine ⟨⟨hupkeeps.serves, h.distinct⟩, fun i hi f hf => hupkeeps.noted _ (List.mem_of_getElem? hf) (hi f hf), ?_⟩
    intro hphase f hf
    cases hd.symm.trans hf
    exact hanswers.registered hphase f rfl
  -- the body may be annotated by now, but the header is the same: name and place stay
  · obtain rfl : d' = .function f' := heq
    have hname : f'.header.name = f.header.name := by rw [hheader]
    have hspan : f'.header.span = f.header.span := by rw [hheader]
    have hnoted : ∀ s, (Decl.function f).Noted s → (Decl.function f').Noted s := fun s hs => by
      rw [Decl.Noted, hspan]
      exact hs
    have hself : (m.decls.set index (.function f'))[index]? = some (.function f') := List.getElem?_set_self hlt
    refine ⟨⟨hupkeeps.serves.replace hd hf' hheader, ?_⟩, fun i hi g hg => ?_, fun hphase g hg => ?_⟩
    · rw [List.map_set, show (Decl.function f').name = m.decls[index].name by rw [hget]; exact hname,
        ← List.getElem_map Decl.name, List.set_getElem_self]
      · exact h.distinct
      · simpa using hlt
    · by_cases hindex : index = i
      · subst hindex
        cases hself.symm.trans hg
        exact hnoted _ (hupkeeps.noted _ (List.mem_of_getElem? hd) (hi f hd))
      · have hold := (List.getElem?_set_ne hindex).symm.trans hg
        exact hupkeeps.noted _ (List.mem_of_getElem? hold) (hi g hold)
    · cases hself.symm.trans hg
      exact hnoted _ (hanswers.registered hphase f rfl)

/-- One call is answered, and others can follow. -/
private theorem Orderly.call (h : m.Orderly L) (hL : ∀ span, L.isOtherName span) (hclosed : ¬L.closed)
    (hdistinct : ¬L.distinct)
    (options : Options) (hregistered : phase = .registration ∨ phase = .structs ∨ m.HasRegistered index) :
    ∃ m' answer, m.call (.treat phase options index) = .ok (m', answer) ∧ m.Treated L phase index m' := by
  rw [Module.call]
  cases hd : m.decls[index]? with
  | none => exact ⟨m, {}, rfl, h, fun _ hi => hi, fun _ f hf => by cases hd.symm.trans hf⟩
  | some d =>
    have hanswers := h.ask hL hclosed hdistinct options hd hregistered
    dsimp only
    obtain ⟨d', outcome, hask⟩ : ∃ d' outcome, phase.ask options d m.store = (d', outcome) := ⟨_, _, rfl⟩
    rw [hask] at hanswers ⊢
    have hupdate := h.update hd hanswers
    obtain ⟨(why | g) | type, store⟩ := outcome
    · exact ⟨_, _, rfl, hupdate⟩
    · exact absurd rfl (hanswers.faultless g)
    · exact ⟨_, _, rfl, hupdate⟩

/-- Nothing is asked of a function before it is registered; `done` are the positions that are registered already. -/
def registersFirst (done : List Nat) : List Call → Bool
  | [] => true
  | .compile _ :: _ => false
  | .treat .registration _ index :: rest => registersFirst (index :: done) rest
  | .treat .structs _ _ :: rest => registersFirst done rest
  | .treat _ _ index :: rest => done.contains index && registersFirst done rest

/-- A run of calls is answered, and what holds between two calls holds in the end. -/
private theorem Orderly.calls {done : List Nat} {calls : List Call} (h : m.Orderly L) (hL : ∀ span, L.isOtherName span)
    (hclosed : ¬L.closed) (hdistinct : ¬L.distinct) (hdone : ∀ i ∈ done, m.HasRegistered i)
    (hcalls : registersFirst done calls = true) :
    ∃ m' answers, m.calls calls = .ok (m', answers) ∧ m'.Orderly L := by
  induction calls generalizing m done with
  | nil => exact ⟨m, [], rfl, h⟩
  | cons call rest ih =>
    cases call with
    | compile options => cases hcalls
    | treat phase options index =>
      have hnext : ∃ done', (∀ i ∈ done', i ∈ done ∨ phase = .registration ∧ i = index) ∧
          registersFirst done' rest = true ∧ (phase = .registration ∨ phase = .structs ∨ m.HasRegistered index) := by
        cases phase with
        | registration => exact ⟨index :: done, by simp +contextual [or_comm], hcalls, .inl rfl⟩
        | structs => exact ⟨done, fun _ => .inl, hcalls, .inr (.inl rfl)⟩
        | signatures | bodies =>
          obtain ⟨hmem, hrest⟩ := Bool.and_eq_true_iff.mp hcalls
          exact ⟨done, fun _ => .inl, hrest, .inr (.inr (hdone index (List.contains_iff_mem.mp hmem)))⟩
      obtain ⟨done', hsub, hrest, hregistered⟩ := hnext
      obtain ⟨m₁, answer, hcall, htreated⟩ := h.call hL hclosed hdistinct options hregistered
      have hdone' : ∀ i ∈ done', m₁.HasRegistered i := fun i hi =>
        (hsub i hi).elim (fun hi => htreated.keeps i (hdone i hi)) fun ⟨hphase, heq⟩ => heq ▸ htreated.registers hphase
      obtain ⟨m', answers, hcalls', hm'⟩ := ih htreated.orderly hdone' hrest
      refine ⟨m', answer :: answers, ?_, hm'⟩
      rw [Module.calls, hcall, ok_bind]
      dsimp only
      rw [hcalls']
      rfl

end Module

/-! ### The module as it is parsed -/

section

variable {decls : List Decl}

/-- Nothing is known in the store that a module begins with. -/
private theorem steady_initial : Store.Steady (openListing decls) {} := by
  have h : Registered [] { outer := [FrameId.builtin] } {} {} := registered_initial
  have habsent : ∀ {t e}, (∀ name, e ≠ .primitive name) → Store.typeAt? {} t ≠ some e := fun {t e} hne he => by
    obtain ⟨name, heq⟩ := (h.entries t e he).resolve_right fun ⟨d, hd, _⟩ => by cases hd
    exact hne name heq
  have hframes : Store.FramesSound (moduleListing []) {} := h.framesSound ⟨by simp, by simp, by simp, by simp⟩
  have hvalues : ∀ {fr : FrameId} {f : Frame}, Store.frame? {} fr = some f → f.values = [] := fun hf => by
    rcases h.frame_cases hf with ⟨-, rfl⟩ | ⟨-, rfl⟩ | ⟨-, rfl⟩ <;> rfl
  refine ⟨⟨⟨h.primitives, fun t inner he => absurd he (habsent (by simp)),
    fun t params returns he => absurd he (habsent (by simp)), fun t decl state he => absurd he (habsent (by simp)),
    fun t decl fields he => absurd he (habsent (by simp)), False.elim, fun t decl why he =>
      absurd he (habsent (by simp)),
    fun t => ⟨fun ht => ?_, fun ⟨decl, he⟩ => absurd he (habsent (by simp))⟩, False.elim, List.nodup_nil, fun t ht =>
      absurd ht List.not_mem_nil,
    h.once, False.elim⟩,
    ⟨hframes.three_le, hframes.outer, hframes.types, fun fr f name v hf hv => ?_, hframes.once, False.elim⟩,
    ⟨fun key sig hsig => ?_, fun key t ht => ?_, fun key why hwhy => ?_⟩⟩, rfl, fun key _ => rfl⟩
  · cases ht
  · rw [hvalues hf] at hv
    cases hv
  · cases hsig
  · cases ht
  · cases hwhy

private theorem Parsed.orderly {file : SourceFile} (h : Parsed decls) (hnodup : (decls.map Decl.name).Nodup) :
    Module.Orderly (openListing decls) { file, decls } where
  serves := by
    refine ⟨steady_initial, nofun, fun f name hf hhas => ?_, fun f hf => h.upright hf _⟩
    cases hf
    cases hhas
  distinct := hnodup

end

/--
If functions are registered before anything else is asked of them, calls on the declarations of a
module can come in any order, any number of times: none of them raises a fault, and the type of the
variable of a registered function is the type that the function is resolved to.
-/
theorem Module.calls_of_registersFirst (file : SourceFile) (decls : List Decl) (hdecls : file.declarations = .ok decls)
    (hnodup : (decls.map Decl.name).Nodup) (calls : List Call) (hcalls : registersFirst [] calls = true) :
    ∃ m answers, Module.calls { file, decls } calls = .ok (m, answers) ∧
      ∀ key held signature, (m.store.function key).variableType = some held →
        (m.store.function key).signature = some signature → held = .owned signature := by
  have horderly : Module.Orderly _ { file, decls } := (file.parsed_of_declarations hdecls).orderly hnodup
  obtain ⟨m, answers, hrun, hm⟩ := horderly.calls (fun _ => trivial) id id (by simp) hcalls
  refine ⟨m, answers, hrun, fun key held signature hheld hsignature => ?_⟩
  rcases hm.serves.steady.sound.functions.variableType key held hheld with ⟨-, hnone⟩ | ⟨sig, rfl, hsig⟩
  · cases hnone.symm.trans hsignature
  · cases hsig.symm.trans hsignature
    rfl

/-- A function is checked before the one that it calls is registered, which is a problem, and again behind that. -/
theorem Module.calls_of_registersFirst_caller : ∃ decls m answers,
    SourceFile.declarations ⟨"caller", "fn f(){} fn g(){f();}".toList⟩ = .ok decls ∧
      decls.map Decl.name = ["f", "g"] ∧
      Module.calls ⟨⟨"caller", "fn f(){} fn g(){f();}".toList⟩, decls, {}⟩
        [.treat .registration {} 1, .treat .bodies {} 1, .treat .registration {} 0, .treat .signatures {} 0,
          .treat .bodies {} 1] = .ok (m, answers) ∧
      ∀ key held signature, (m.store.function key).variableType = some held →
        (m.store.function key).signature = some signature → held = .owned signature := by
  have hrun : (SourceFile.declarations ⟨"caller", "fn f(){} fn g(){f();}".toList⟩).toOption.map
      (·.map Decl.name) = some ["f", "g"] := by
    decide +kernel
  obtain ⟨decls, hdecls, hnames⟩ := Option.map_eq_some_iff.mp hrun
  have hdecls := eq_ok_of_toOption hdecls
  obtain ⟨m, answers, hcalls⟩ := Module.calls_of_registersFirst _ decls hdecls (by rw [hnames]; decide)
    [.treat .registration {} 1, .treat .bodies {} 1, .treat .registration {} 0, .treat .signatures {} 0,
      .treat .bodies {} 1] rfl
  exact ⟨decls, m, answers, hdecls, hnames, hcalls⟩

/--
What is on record about the first function of a file behind a run of calls: the type of its variable
and the type that it is resolved to; and the fault that one more call raises.
-/
def SourceFile.faultAfter? (file : SourceFile) (calls : List Call) (last : Call) :
    Option (List String × Option (Holder TypeId) × Option TypeId × Fault) := do
  let decls ← file.declarations.toOption
  let (m, _) ← (Module.calls { file, decls } calls).toOption
  match decls.head?, m.call last with
  | some (.function f), .error fault =>
    let record := m.store.function f.header.span
    return (decls.map Decl.name, record.variableType, record.signature, fault)
  | _, _ => none

private theorem SourceFile.faultAfter?_spec {file : SourceFile} {calls : List Call} {last : Call} {names : List String}
    {held : Option (Holder TypeId)} {signature : Option TypeId} {fault : Fault}
    (h : file.faultAfter? calls last = some (names, held, signature, fault)) :
    ∃ decls m answers f, file.declarations = .ok decls ∧ decls.map Decl.name = names ∧
      decls.head? = some (.function f) ∧
      Module.calls { file, decls } calls = .ok (m, answers) ∧ (m.store.function f.header.span).variableType = held ∧
      (m.store.function f.header.span).signature = signature ∧ m.call last = .error fault := by
  obtain ⟨decls, hdecls, h⟩ := Option.bind_eq_some_iff.mp h
  obtain ⟨⟨m, answers⟩, hm, h⟩ := Option.bind_eq_some_iff.mp h
  dsimp only at h
  split at h
  · rename_i f fault hhead hlast
    cases h
    exact ⟨decls, m, answers, f, eq_ok_of_toOption hdecls, rfl, hhead, eq_ok_of_toOption hm, rfl, rfl, hlast⟩
  · cases h

/--
A function that is resolved before it is registered is left with a variable that has no type, and to
check a function that calls it is a fault.
-/
theorem Module.calls_fault_late : ∃ decls m answers f,
    SourceFile.declarations ⟨"late", "fn f(){} fn g(){f();}".toList⟩ = .ok decls ∧
      decls.map Decl.name = ["f", "g"] ∧ decls.head? = some (.function f) ∧
      Module.calls ⟨⟨"late", "fn f(){} fn g(){f();}".toList⟩, decls, {}⟩
        [.treat .signatures {} 0, .treat .registration {} 0, .treat .registration {} 1] = .ok (m, answers) ∧
      (m.store.function f.header.span).variableType = some .empty ∧
      (m.store.function f.header.span).signature = some 7 ∧
      m.call (.treat .bodies {} 1) = .error .emptyHolder :=
  SourceFile.faultAfter?_spec (by decide +kernel)

end RainCheck

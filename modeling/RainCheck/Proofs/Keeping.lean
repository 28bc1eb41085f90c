import RainCheck.Proofs.Resolution

/-!
# Actions that keep a store sound

Between declarations no struct is being resolved (`Idle`), and actions only learn more about types and functions
(`Learns`).  Such actions raise no fault: they give a result or refuse the program, and the store stays sound (`Keeps`).
Here are the types of declarations: written types, and the types of functions, which are resolved once.
-/

namespace RainCheck

/-- A store in which more is known about types and registered functions, with the same frames. -/
structure Store.Learns (s s' : Store) : Prop extends s.Extends s' where
  frames_eq : s'.frames = s.frames
  unregistered : ∀ key, (s.function key).variableType = none → s'.function key = s.function key

namespace Store

variable {s s' s'' : Store}

theorem Refines.learns (h : s.Refines s') : s.Learns s' := by
  refine ⟨h.toExtends, h.frames_eq, fun key _ => ?_⟩
  unfold function
  rw [h.functions_eq]

theorem Learns.refl (s : Store) : s.Learns s := ⟨.refl s, rfl, fun _ _ => rfl⟩

theorem Learns.trans (h : s.Learns s') (h' : s'.Learns s'') : s.Learns s'' := by
  refine ⟨h.toExtends.trans h'.toExtends, h'.frames_eq.trans h.frames_eq, fun key hkey => ?_⟩
  have hsame := h.unregistered key hkey
  rw [h'.unregistered key (by rwa [hsame]), hsame]

end Store

namespace Action

variable {α β : Type} {L : Listing} {s s' : Store}

/-- An action on a sound store learns something such that `P` holds, or refuses the program such that `R` holds. -/
def Keeps (L : Listing) (s : Store) (a : Action α) (P : α → Store → Prop) (R : Diagnostic → Prop) : Prop :=
  a.Ends s (fun x s' => s'.Sound L ∧ s.Learns s' ∧ P x s') (fun d s' => s'.Sound L ∧ s.Learns s' ∧ R d)

variable {P : α → Store → Prop} {R : Diagnostic → Prop}

theorem Keeps.bind {a : Action α} {f : α → Action β} {Q : β → Store → Prop} (h : Keeps L s a P R)
    (hf : ∀ x s', s'.Sound L → s.Learns s' → P x s' → Keeps L s' (f x) Q R) : Keeps L s (a >>= f) Q R := by
  refine Ends.bind h ?_
  rintro x s' ⟨hs', hlearns, hP⟩
  refine (hf x s' hs' hlearns hP).mono ?_ ?_
  · rintro y s'' ⟨hs'', hlearns', hQ⟩
    exact ⟨hs'', hlearns.trans hlearns', hQ⟩
  · rintro d s'' ⟨hs'', hlearns', hR⟩
    exact ⟨hs'', hlearns.trans hlearns', hR⟩

theorem Keeps.mono {a : Action α} {Q : α → Store → Prop} {R' : Diagnostic → Prop} (h : Keeps L s a P R)
    (himp : ∀ x s', s'.Sound L → s.Learns s' → P x s' → Q x s') (hR : ∀ d, R d → R' d) : Keeps L s a Q R' := by
  refine Ends.mono h ?_ ?_
  · rintro x s' ⟨hs', hlearns, hP⟩
    exact ⟨hs', hlearns, himp x s' hs' hlearns hP⟩
  · rintro d s' ⟨hs', hlearns, hd⟩
    exact ⟨hs', hlearns, hR d hd⟩

theorem keeps_pure {x : α} (hs : s.Sound L) (h : P x s) : Keeps L s (pure x) P R := ⟨hs, .refl s, h⟩

theorem keeps_refuse {span : Span} {cause : Cause} (hs : s.Sound L) (h : R ⟨span, cause⟩) :
    Keeps L s (refuse span cause) P R :=
  ⟨hs, .refl s, h⟩

/-- A step that only looks at the store. -/
private theorem keeps_of_ends {a : Action α} {f : α → Action β} {Q : β → Store → Prop} {x : α}
    (ha : ∀ (done : α → Store → Prop) (refused : Diagnostic → Store → Prop), done x s → a.Ends s done refused)
    (h : Keeps L s (f x) Q R) : Keeps L s (a >>= f) Q R :=
  ends_bind.mpr (ha _ _ h)

theorem keeps_get {f : Store → Action β} {Q : β → Store → Prop} (h : Keeps L s (f s) Q R) : Keeps L s (get >>= f) Q R :=
  keeps_of_ends (fun _ _ h => h) h

theorem keeps_lift {f : α → Action β} {Q : β → Store → Prop} {r : Except Fault α} {x : α} (hr : r = .ok x)
    (h : Keeps L s (f x) Q R) : Keeps L s (lift r >>= f) Q R := by
  subst hr
  exact keeps_of_ends (fun _ _ h => h) h

theorem keeps_fromTypes {f : α → Action β} {Q : β → Store → Prop} {read : Types → Except Fault α} {x : α}
    (hr : read s.types = .ok x) (h : Keeps L s (f x) Q R) : Keeps L s (fromTypes read >>= f) Q R :=
  keeps_of_ends (fun _ _ h => (ends_fromTypes hr).mpr h) h

/-- Refusing with the text of a type, which can always be written. -/
theorem keeps_textOf {f : String → Action β} {Q : β → Store → Prop} {id : TypeId} (hs : s.Sound L) (hid : s.Known id)
    (h : ∀ text, Keeps L s (f text) Q R) : Keeps L s (textOf id >>= f) Q R :=
  ends_bind.mpr (ends_textOf hs hid.lt_size h)

theorem Resolves.keeps {a : Action α} (h : Resolves L s a P) : Keeps L s a P L.Allows := by
  refine Ends.mono h ?_ ?_
  · rintro x s' ⟨hs', hrefines, hP⟩
    exact ⟨hs', hrefines.learns, hP⟩
  · rintro d s' ⟨hs', hrefines, hallows, -⟩
    exact ⟨hs', hrefines.learns, hallows⟩

/-! ### Written types -/

theorem pending_lt_bound : s.pending < 2 * s.types.size + 2 := by
  have : s.pending ≤ s.types.size := List.countP_le_length
  omega

private theorem resolves_depthBound {f : Nat → Action β} {Q : β → Store → Prop}
    (h : Resolves L s (f (2 * s.types.size + 2)) Q) : Resolves L s (depthBound >>= f) Q := by
  unfold Resolves depthBound
  simp only [ends_bind, ends_get, ends_pure]
  exact h

/-- Between declarations, everything that is written can be resolved. -/
theorem resolvable_of_idle {fr : FrameId} {ms : List Mention} {uses : List TypeUse} (hs : s.Sound L)
    (hidle : s.Idle) (hfr : fr < s.frames.size) (hms : L.Lists ms) :
    Resolvable L (2 * s.types.size + 2) fr ms uses s :=
  ⟨hs, pending_lt_bound, hfr, hms, fun _ hA => absurd hA hidle.not_top⟩

theorem resolves_type {fr : FrameId} {t : TypeExpr} (hs : s.Sound L) (hidle : s.Idle) (hfr : fr < s.frames.size)
    (ht : L.Lists t.mentions) : Resolves L s (resolveType fr t) fun id s' => s'.Settled id := by
  refine resolves_depthBound ((resolves_typeWith (completes_completeWithin L _) t ?_).mono ?_)
  · exact resolvable_of_idle hs hidle hfr ht
  · rintro id s' - - ⟨-, hsettled, -⟩
    exact hsettled rfl

private theorem resolves_types {fr : FrameId} {ts : List TypeExpr} (hs : s.Sound L) (hidle : s.Idle)
    (hfr : fr < s.frames.size) (hts : L.Lists (TypeExpr.mentionsAll ts)) :
    Resolves L s (resolveTypes fr ts) fun ids s' => (∀ id ∈ ids, s'.Settled id) ∧ ids.length = ts.length := by
  refine resolves_depthBound ((resolves_typesWith (completes_completeWithin L _) ts ?_).mono ?_)
  · exact resolvable_of_idle hs hidle hfr hts
  · rintro ids s' - - ⟨hsettled, hlen, -⟩
    exact ⟨hsettled, hlen⟩

private theorem resolves_returns {fr : FrameId} {t : Option TypeExpr} (hs : s.Sound L) (hidle : s.Idle)
    (hfr : fr < s.frames.size) (ht : L.Lists (TypeExpr.optionMentions t)) :
    Resolves L s (resolveReturns fr t) fun id s' => s'.Settled id := by
  refine resolves_depthBound ((resolves_returnsWith (completes_completeWithin L _) t ?_).mono ?_)
  · exact resolvable_of_idle hs hidle hfr ht
  · rintro id s' - - ⟨hsettled, -⟩
    exact hsettled

/-- A struct that is used by value between declarations is settled afterwards, or it has failed. -/
theorem ends_complete {use : Span} {id : TypeId} (hs : s.Sound L) (hidle : s.Idle) (hid : s.Known id) :
    (complete use id).Ends s (fun t s' => s'.Sound L ∧ s.Refines s' ∧ t = id ∧ s'.Settled id)
      (fun d s' => s'.Sound L ∧ s.Refines s' ∧ L.Allows d ∧
        ∃ decl, s'.typeAt? id = some (.struct decl (.failed d))) := by
  unfold complete depthBound
  simp only [ends_bind, ends_get, ends_pure]
  refine (completes_completeWithin L _ s use id hs pending_lt_bound hid fun _ A hA => absurd hA hidle.not_top).mono
    (fun _ _ h => h) ?_
  rintro d s' ⟨hs', hrefines, hallows, hfailed | ⟨decl, hresolving⟩⟩
  · exact ⟨hs', hrefines, hallows, hfailed⟩
  · have hmem := (hs.types.resolving id).mpr ⟨decl, hresolving⟩
    rw [show s.types.resolving.items = [] from hidle] at hmem
    cases hmem

theorem keeps_complete {use : Span} {id : TypeId} (hs : s.Sound L) (hidle : s.Idle) (hid : s.Known id) :
    Keeps L s (complete use id) (fun t s' => t = id ∧ s'.Settled id) L.Allows := by
  refine (ends_complete hs hidle hid).mono ?_ ?_
  · rintro t s' ⟨hs', hrefines, h⟩
    exact ⟨hs', hrefines.learns, h⟩
  · rintro d s' ⟨hs', hrefines, hallows, -⟩
    exact ⟨hs', hrefines.learns, hallows⟩

/-- The type of a function is resolved from its declared types. -/
private theorem resolves_prototype {fr : FrameId} {declared : Prototype} (hs : s.Sound L) (hidle : s.Idle)
    (hfr : fr < s.frames.size) (hdeclared : L.Lists declared.mentions) :
    Resolves L s (resolvePrototype fr declared) fun sig s' =>
      ∃ params returns, s'.typeAt? sig = some (.function params returns) ∧ params.length = declared.params.length := by
  obtain ⟨hparams, hreturns⟩ := Listing.lists_append.mp hdeclared
  unfold resolvePrototype
  refine (resolves_types hs hidle hfr hparams).bind ?_
  rintro params s₁ hs₁ hrefines₁ ⟨hsettled, hlen⟩
  refine (resolves_returns hs₁ (hrefines₁.idle hidle) (hrefines₁.toGrowsTo.frame_lt hfr) hreturns).bind ?_
  intro returns s₂ hs₂ hrefines₂ hreturn
  refine (resolves_functionOf hs₂ (fun p hp => hrefines₂.toGrowsTo.settled (hsettled p hp)) hreturn).mono ?_
  intro sig s₃ hs₃ hrefines₃ he
  exact ⟨params, returns, he, hlen⟩

end Action

/-! ### Records of functions -/

theorem Records.find?_insert {α : Type} (r : Records α) (key k : Span) (a : α) :
    (r.insert key a).find? k = if k = key then some a else r.find? k := by
  unfold Records.insert Records.find?
  by_cases hk : k = key
  · subst hk
    simp
  · have hne : (k == key) = false := by simpa using hk
    simp only [List.lookup_cons, hne, hk, if_false, ne_eq, decide_not]
    induction r.entries with
    | nil => rfl
    | cons e entries ih =>
      obtain ⟨k', a'⟩ := e
      by_cases he : k' = key
      · subst he
        simp [List.lookup_cons, hne, ih]
      · simp [he, List.lookup_cons, ih]

namespace Store

variable {L : Listing} {s : Store}

/-- A store with another record for a function. -/
def withFunction (s : Store) (key : Span) (r : FunctionRecord) : Store :=
  { s with functions := s.functions.insert key r }

theorem function_withFunction (key k : Span) (r : FunctionRecord) :
    (s.withFunction key r).function k = if k = key then r else s.function k := by
  unfold function withFunction
  rw [Records.find?_insert]
  split <;> rfl

theorem extends_withFunction {key : Span} {r : FunctionRecord} (h : (s.function key).GrowsTo r) :
    s.Extends (s.withFunction key r) := by
  refine ⟨⟨fun _ e he => ⟨e, he, .refl e⟩, rfl, fun _ f hf => ⟨f, hf, .refl f⟩, fun k => ?_⟩, rfl, Nat.le_refl _⟩
  rw [function_withFunction]
  by_cases hk : k = key
  · subst hk
    simpa using h
  · simpa [hk] using FunctionRecord.GrowsTo.refl _

private theorem learns_withFunction {key : Span} {r : FunctionRecord} (h : (s.function key).GrowsTo r)
    (hregistered : (s.function key).variableType.isSome = true) : s.Learns (s.withFunction key r) := by
  refine ⟨extends_withFunction h, rfl, fun k hk => ?_⟩
  rw [function_withFunction, if_neg]
  rintro rfl
  simp [hk] at hregistered

theorem FunctionsSound.withFunction (h : s.FunctionsSound L) {key : Span} {r : FunctionRecord}
    (hsignature : ∀ sig, r.signature = some sig → ∃ params returns,
      s.typeAt? sig = some (.function params returns) ∧ params.length = (L.prototype key).params.length)
    (hvariable : ∀ t, r.variableType = some t →
      (t = .empty ∧ r.signature = none) ∨ ∃ sig, t = .owned sig ∧ r.signature = some sig)
    (hfailure : ∀ why, r.failure = some why → L.Allows why) : (s.withFunction key r).FunctionsSound L := by
  refine ⟨?_, ?_, ?_⟩
  all_goals
    intro k x hx
    rw [function_withFunction] at hx
    by_cases hk : k = key
    · subst hk
      simp only [if_true] at hx
      first
        | exact hsignature x hx
        | exact hfailure x hx
        | simpa [function_withFunction] using hvariable x hx
    · simp only [hk, if_false] at hx
      first
        | exact h.signature k x hx
        | exact h.failure k x hx
        | simpa [function_withFunction, hk] using h.variableType k x hx

private theorem Sound.withFunction (h : s.Sound L) {key : Span} {r : FunctionRecord}
    (hgrows : (s.function key).GrowsTo r)
    (hfunctions : (s.withFunction key r).FunctionsSound L) : (s.withFunction key r).Sound L :=
  ⟨h.types.congr rfl rfl, h.frames.grow (extends_withFunction hgrows).toGrowsTo rfl, hfunctions⟩

end Store

namespace Action

variable {L : Listing} {s : Store}

/-- The type of a function is resolved once, and the variable of the function gets it. -/
theorem ends_signature {fr : FrameId} {key : Span} {declared : Prototype} (hs : s.Sound L) (hidle : s.Idle)
    (hfr : fr < s.frames.size) (hkey : L.prototype key = declared) (hdeclared : L.Lists declared.mentions)
    (hregistered : (s.function key).variableType.isSome = true) :
    (resolveSignature fr key declared).Ends s
      (fun sig s' => s'.Sound L ∧ s.Learns s' ∧ (s'.function key).signature = some sig)
      (fun d s' => s'.Sound L ∧ s.Learns s' ∧ L.Allows d ∧
        (s'.function key).signature = none ∧ (s'.function key).failure = some d) := by
  refine ends_bind.mpr (ends_get.mpr ?_)
  dsimp only
  cases hsignature : (s.function key).signature with
  | some sig => exact ends_pure.mpr ⟨hs, .refl s, hsignature⟩
  | none =>
    cases hfailure : (s.function key).failure with
    | some why => exact ends_throw.mpr ⟨hs, .refl s, hs.functions.failure key why hfailure, hsignature, hfailure⟩
    | none =>
      refine Ends.bind (resolves_prototype hs hidle hfr hdeclared).outcome ?_
      have hrecord : ∀ {s' : Store}, s.Refines s' → s'.function key = s.function key := fun h => by
        unfold Store.function
        rw [h.functions_eq]
      rintro r s' (⟨sig, rfl, hs', hrefines, params, returns, he, hlen⟩ | ⟨why, rfl, hs', hrefines, hallows, -⟩)
      · have hgrows : (s'.function key).GrowsTo { s'.function key with
            signature := some sig, variableType := (s'.function key).variableType.map fun _ => .owned sig } := by
          refine ⟨fun sig' hsig' => ?_, fun t ht => ⟨.owned sig, by simp [ht], fun u hu => ?_⟩, fun why _ hwhy => ?_⟩
          · rw [hrecord hrefines, hsignature] at hsig'
            cases hsig'
          · -- before its type is resolved, the variable has none
            rcases hs'.functions.variableType key t ht with ⟨rfl, -⟩ | ⟨sig', rfl, hsig'⟩
            · cases hu
            · rw [hrecord hrefines, hsignature] at hsig'
              cases hsig'
          -- nor was a failure on record
          · rw [hrecord hrefines, hfailure] at hwhy
            cases hwhy
        have hsound := hs'.withFunction hgrows (hs'.functions.withFunction
          (fun sig' hsig' => by cases hsig'; exact ⟨params, returns, he, by rw [hlen, hkey]⟩)
          (fun t ht => by
            obtain ⟨u, -, rfl⟩ := Option.map_eq_some_iff.mp ht
            exact .inr ⟨sig, rfl, rfl⟩)
          (fun why hwhy => hs'.functions.failure key why hwhy))
        refine ⟨hsound, hrefines.learns.trans (Store.learns_withFunction hgrows (by rwa [hrecord hrefines])), ?_⟩
        exact (congrArg FunctionRecord.signature (Store.function_withFunction key key _)).trans (by simp)
      · have hgrows : (s'.function key).GrowsTo { s'.function key with failure := some why } :=
          ⟨fun _ h => h, fun t ht => ⟨t, ht, fun _ h => h⟩, fun why' _ hwhy' => by
            rw [hrecord hrefines, hfailure] at hwhy'
            cases hwhy'⟩
        have hsound := hs'.withFunction hgrows (hs'.functions.withFunction
          (fun sig hsig => hs'.functions.signature key sig hsig)
          (fun t ht => hs'.functions.variableType key t ht) (fun why' hwhy => by cases hwhy; exact hallows))
        refine ⟨hsound,
          hrefines.learns.trans (Store.learns_withFunction hgrows (by rwa [hrecord hrefines])), hallows, ?_⟩
        change ((s'.withFunction key _).function key).signature = none ∧
          ((s'.withFunction key _).function key).failure = some why
        rw [Store.function_withFunction, if_pos rfl]
        exact ⟨by rw [hrecord hrefines, hsignature], rfl⟩

theorem keeps_signature {fr : FrameId} {key : Span} {declared : Prototype} (hs : s.Sound L) (hidle : s.Idle)
    (hfr : fr < s.frames.size) (hkey : L.prototype key = declared) (hdeclared : L.Lists declared.mentions)
    (hregistered : (s.function key).variableType.isSome = true) :
    Keeps L s (resolveSignature fr key declared) (fun sig s' => (s'.function key).signature = some sig) L.Allows := by
  refine (ends_signature hs hidle hfr hkey hdeclared hregistered).mono (fun _ _ h => h) ?_
  rintro d s' ⟨hs', hlearns, hallows, -⟩
  exact ⟨hs', hlearns, hallows⟩

end Action

end RainCheck

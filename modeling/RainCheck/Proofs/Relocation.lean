import RainCheck.Proofs.InStep

/-!
# Stores that differ by spans

A compilation never looks at spans but to tell them apart, and never at problems at all.  A matching is `Rigid` if it
matches nothing but spans and problems, the spans one to one; it is `Exact` if problems are matched by their spans.
* (stores) `Store.Matches` relates stores that are the same but for spans and problems; they make a `Simulation`.
* (structs) Resolving structs on demand is in step, by the bound on its depth.
-/

namespace RainCheck

open RainCheck.Action

/-- Only spans differ, and stand for each other one to one; so do problems, whose causes are the same. -/
structure Matching.Exact (m : Matching) : Prop where
  span : ∀ {a a' b b'}, m.span a a' → m.span b b' → (a' = b' ↔ a = b)
  type : m.type = Eq
  frame : m.frame = Eq
  problem : ∀ {d d'}, m.problem d d' ↔ m.span d.span d'.span ∧ d'.cause = d.cause

/-- Only spans and problems differ; the spans stand for each other one to one, and problems made at these do, too. -/
structure Matching.Rigid (m : Matching) : Prop where
  span : ∀ {a a' b b'}, m.span a a' → m.span b b' → (a' = b' ↔ a = b)
  type : m.type = Eq
  frame : m.frame = Eq
  problem : ∀ {a a'} (c : Cause), m.span a a' → m.problem ⟨a, c⟩ ⟨a', c⟩

namespace Matching.Exact

variable {m : Matching} (hm : m.Exact)

include hm

theorem rigid : m.Rigid where
  span := hm.span
  type := hm.type
  frame := hm.frame
  problem _ ha := hm.problem.mpr ⟨ha, rfl⟩

theorem problem_iff {d d' e e' : Diagnostic} (hd : m.problem d d') (he : m.problem e e') : d' = e' ↔ d = e := by
  obtain ⟨a, c⟩ := d
  obtain ⟨a', c'⟩ := d'
  obtain ⟨b, k⟩ := e
  obtain ⟨b', k'⟩ := e'
  obtain ⟨ha, hc⟩ : m.span a a' ∧ c' = c := hm.problem.mp hd
  obtain ⟨hb, hk⟩ : m.span b b' ∧ k' = k := hm.problem.mp he
  rw [Diagnostic.mk.injEq, Diagnostic.mk.injEq, hm.span ha hb, hc, hk]

end Matching.Exact

namespace Matching.Rigid

variable {m : Matching} (hm : m.Rigid)

include hm

theorem type_iff {t t' : TypeId} : m.type t t' ↔ t = t' := by rw [hm.type]

theorem frame_iff {fr fr' : FrameId} : m.frame fr fr' ↔ fr = fr' := by rw [hm.frame]

private theorem types_eq {ts ts' : List TypeId} (h : List.Forall₂ m.type ts ts') : ts = ts' := by
  rwa [hm.type, List.forall₂_eq_eq_eq] at h

end Matching.Rigid

private theorem Stop.rel_lift {α β : Type} {m : Matching} {Q : α → β → Prop} {x : Except Fault α} {y : Except Fault β}
    (h : Except.Rel Eq Q x y) : Except.Rel (Stop.Matches m) Q (Stop.lift x) (Stop.lift y) := by
  cases h with
  | ok h => exact .ok h
  | error h =>
    subst h
    exact .error (.fault _)

/-! ### Stores -/

section

variable {m : Matching}

/-- Lists of types that are the same but for spans. -/
structure Types.Matches (m : Matching) (ts ts' : Types) : Prop where
  entries : List.Forall₂ (TypeEntry.Matches m) ts.entries ts'.entries
  resolving : ts'.resolving = ts.resolving

/-- Frames that are the same but for spans. -/
structure Frame.Matches (m : Matching) (f f' : Frame) : Prop where
  outer : f'.outer = f.outer
  values : List.Forall₂ (fun a b => b.1 = a.1 ∧ a.2.Matches m b.2) f.values f'.values
  types : f'.types = f.types

/-- Records of functions that are the same but for spans. -/
structure FunctionRecord.Matches (m : Matching) (r r' : FunctionRecord) : Prop where
  variableType : r'.variableType = r.variableType
  signature : r'.signature = r.signature
  failure : Option.Rel m.problem r.failure r'.failure

/-- Records that are related, by spans that stand for each other. -/
def Records.Matches {α : Type} (m : Matching) (R : α → α → Prop) (r r' : Records α) : Prop :=
  List.Forall₂ (fun a b => m.span a.1 b.1 ∧ R a.2 b.2) r.entries r'.entries

private theorem Frame.Matches.has {f f' : Frame} (hf : f.Matches m f') (name : String) : f'.has name = f.has name := by
  rw [Frame.has, Frame.has, Frame.findType, Frame.findType, hf.types]
  exact congrArg (· || _) (rel_lookup hf.values name).isSome

/-- All frames, which are the same but for spans. -/
def Frames.Matches (m : Matching) (fs fs' : Frames) : Prop := List.Forall₂ (Frame.Matches m) fs.frames fs'.frames

/-- Stores that are the same but for spans. -/
structure Store.Matches (m : Matching) (s s' : Store) : Prop where
  types : s.types.Matches m s'.types
  frames : s.frames.Matches m s'.frames
  functions : Records.Matches m (FunctionRecord.Matches m) s.functions s'.functions
  structs : Records.Matches m Eq s.structs s'.structs

/-- Stores that are the same but for spans and problems, for matchings that match nothing else. -/
def Relocated : StoreRelation := fun m s s' => m.Rigid ∧ s.Matches m s'

namespace Types.Matches

variable {ts ts' : Types} (h : ts.Matches m ts')

include h

private theorem size : ts'.size = ts.size := h.entries.length_eq.symm

private theorem get (id : TypeId) :
    Except.Rel Eq (TypeEntry.Matches m) (ts.get id) (ts'.get id) := rel_itemAt h.entries id

private theorem textWithin (hm : m.Rigid) (depth : Nat) (id : TypeId) :
    ts'.textWithin depth id = ts.textWithin depth id := by
  induction depth generalizing id with
  | zero => rfl
  | succ depth ih =>
    have hget := h.get id
    rw [Types.textWithin, Types.textWithin]
    generalize ts.get id = r at hget
    generalize ts'.get id = r' at hget
    cases hget with
    | error he => rw [he]; rfl
    | ok he =>
      cases he with
      | primitive => rfl
      | struct hd => simp only [ok_bind, hd.name]
      | reference ht =>
        obtain rfl := hm.type_iff.mp ht
        simp only [ok_bind, ih]
      | function hps hr =>
        obtain rfl := hm.types_eq hps
        obtain rfl := hm.type_iff.mp hr
        have htexts : ts'.textWithin depth = ts.textWithin depth := funext ih
        simp only [ok_bind, htexts]

private theorem text (hm : m.Rigid) (id : TypeId) : ts'.text id = ts.text id := h.textWithin hm _ id

private theorem add {e e' : TypeEntry} (he : e.Matches m e') :
    (ts'.add e').1 = (ts.add e).1 ∧ (ts.add e).2.Matches m (ts'.add e').2 :=
  ⟨h.size, List.rel_append h.entries (.cons he .nil), h.resolving⟩

private theorem intern {p p' : TypeEntry → Bool} (hp : ∀ a b, a.Matches m b → p' b = p a) {e e' : TypeEntry}
    (he : e.Matches m e') :
    (ts'.intern p' e').1 = (ts.intern p e).1 ∧ (ts.intern p e).2.Matches m (ts'.intern p' e').2 := by
  unfold Types.intern
  rw [findIdx?_rel hp h.entries]
  split
  · exact ⟨rfl, h⟩
  · exact h.add he

private theorem setState (id : TypeId) {state state' : StructState} (hstate : state.Matches m state') :
    (ts.setState id state).Matches m (ts'.setState id state') := by
  refine ⟨rel_modify h.entries id fun e e' he => ?_, h.resolving⟩
  cases he with
  | struct hd _ => exact .struct hd hstate
  | primitive => exact .primitive
  | reference ht => exact .reference ht
  | function hps hr => exact .function hps hr

end Types.Matches

namespace Frames.Matches

variable {fs fs' : Frames} (h : fs.Matches m fs')

include h

private theorem get (id : FrameId) : Except.Rel Eq (Frame.Matches m) (fs.get id) (fs'.get id) := rel_itemAt h id

private theorem search {α β : Type} {Q : α → β → Prop} {find : Frame → Option α} {find' : Frame → Option β}
    (hfind : ∀ f f', f.Matches m f' → Option.Rel Q (find f) (find' f')) (id : FrameId) :
    Except.Rel Eq (Option.Rel Q) (fs.search find id) (fs'.search find' id) := by
  have hin : ∀ chain, Except.Rel Eq (Option.Rel Q) (fs.searchIn find chain) (fs'.searchIn find' chain) := by
    intro chain
    induction chain with
    | nil => exact .ok .none
    | cons id outer ih =>
      rw [Frames.searchIn, Frames.searchIn]
      refine (h.get id).bind fun f f' hf => ?_
      have hfound := hfind f f' hf
      generalize find f = o at hfound
      generalize find' f' = o' at hfound
      cases hfound with
      | none => exact ih
      | some hx => exact .ok (.some hx)
  refine Except.Rel.bind (Q := Eq) ((h.get id).bind fun f f' hf => .ok (by rw [hf.outer])) fun chain _ hchain => ?_
  exact hchain ▸ hin chain

private theorem lookup (id : FrameId) (name : String) :
    Except.Rel Eq (Option.Rel (Variable.Matches m)) (fs.lookup id name) (fs'.lookup id name) :=
  h.search (fun _ _ hf => rel_lookup hf.values name) id

private theorem lookupType (id : FrameId) (name : String) : fs'.lookupType id name = fs.lookupType id name := by
  have hrel : Except.Rel Eq (Option.Rel Eq) (fs.lookupType id name) (fs'.lookupType id name) :=
    h.search (fun _ _ hf => by
      rw [Frame.findType, Frame.findType, hf.types]
      exact .refl (fun _ => rfl) _) id
  generalize fs.lookupType id name = r at hrel
  generalize fs'.lookupType id name = r' at hrel
  cases hrel with
  | error he => rw [he]
  | ok ho =>
    cases ho with
    | none => rfl
    | some hx => rw [hx]

private theorem nest (id : FrameId) :
    Except.Rel Eq (fun r r' => r'.1 = r.1 ∧ r.2.Matches m r'.2) (fs.nest id) (fs'.nest id) := by
  refine (h.get id).bind fun f f' hf => .ok ⟨h.length_eq.symm, ?_⟩
  exact List.rel_append h (.cons ⟨by rw [hf.outer], .nil, rfl⟩ .nil)

/-- A change of a frame in which a name is new; otherwise the name is refused at spans that match. -/
private theorem change (hm : m.Rigid) (id : FrameId) (name : String) {a a' : Span}
    (ha : m.span a a') {f g : Frame → Frame}
    (hfg : ∀ x y, x.Matches m y → (f x).Matches m (g y)) :
    Except.Rel (Stop.Matches m) (Frames.Matches m)
      (do
        let frame ← Stop.lift (fs.get id)
        if frame.has name then .error (.refused ⟨a, .duplicateDeclaration name⟩)
        else return (⟨fs.frames.set id (f frame)⟩ : Frames))
      (do
        let frame ← Stop.lift (fs'.get id)
        if frame.has name then .error (.refused ⟨a', .duplicateDeclaration name⟩)
        else return (⟨fs'.frames.set id (g frame)⟩ : Frames)) := by
  refine (Stop.rel_lift (h.get id)).bind fun x y hxy => ?_
  rw [hxy.has name]
  split
  · exact .error (.refused (hm.problem _ ha))
  · exact .ok (rel_set h id (hfg x y hxy))

private theorem declare (hm : m.Rigid) (id : FrameId) {v v' : Variable} (hv : v.Matches m v') :
    Except.Rel (Stop.Matches m) (Frames.Matches m) (fs.declare id v) (fs'.declare id v') := by
  unfold Frames.declare
  rw [hv.name]
  exact h.change hm id v.name hv.span fun x y hxy =>
    { hxy with values := List.rel_append hxy.values (.cons ⟨rfl, hv⟩ .nil) }

private theorem declareType (hm : m.Rigid) (id : FrameId) (name : String) (type : TypeId)
    {a a' : Span} (ha : m.span a a') :
    Except.Rel (Stop.Matches m) (Frames.Matches m) (fs.declareType id name type a) (fs'.declareType id name type a') :=
  h.change hm id name ha fun _ _ hxy => { hxy with types := by rw [hxy.types] }

end Frames.Matches

namespace Records.Matches

variable {α : Type} {R : α → α → Prop} {r r' : Records α} (h : Records.Matches m R r r') (hm : m.Rigid)
  {key key' : Span} (hkey : m.span key key')

include h hm hkey

theorem find? : Option.Rel R (r.find? key) (r'.find? key') := by
  obtain ⟨entries⟩ := r
  obtain ⟨entries'⟩ := r'
  change List.Forall₂ _ entries entries' at h
  change Option.Rel R (entries.lookup key) (entries'.lookup key')
  induction h with
  | nil => exact .none
  | @cons x y _ _ hxy _ ih =>
    have hiff := hm.span hkey hxy.1
    rw [List.lookup_cons, List.lookup_cons, show (key' == y.1) = (key == x.1) by simp only [beq_eq_decide, hiff]]
    split
    · exact .some hxy.2
    · exact ih

private theorem insert {a a' : α} (ha : R a a') : Records.Matches m R (r.insert key a) (r'.insert key' a') := by
  refine .cons ⟨hkey, ha⟩ ?_
  refine List.rel_filter (fun x y hxy => ?_) h
  simp only [ne_eq, hm.span hxy.1 hkey]

end Records.Matches

end

/-! ### Actions -/

section

variable {m : Matching} {α β : Type} {Q : Matching → α → β → Prop}

private theorem inStep_updateTypes {change : Types → α × Types} {change' : Types → β × Types}
    (h : ∀ ts ts', m.Rigid → ts.Matches m ts' →
      Q m (change ts).1 (change' ts').1 ∧ (change ts).2.Matches m (change' ts').2) :
    InStep Relocated m Q (updateTypes change) (updateTypes change') := by
  rintro s s' ⟨hm, hs⟩
  obtain ⟨hQ, htypes⟩ := h _ _ hm hs.types
  exact ⟨m, le_refl m, ⟨hm, { hs with types := htypes }⟩, .ok hQ⟩

private theorem inStep_updateFrames {change change' : Frames → Except Stop Frames}
    (h : ∀ fs fs', m.Rigid → fs.Matches m fs' →
      Except.Rel (Stop.Matches m) (Frames.Matches m) (change fs) (change' fs')) :
    InStep Relocated m (fun _ _ _ => True) (updateFrames change) (updateFrames change') := by
  rintro s s' ⟨hm, hs⟩
  have hchange := h _ _ hm hs.frames
  have hrun : ∀ (change : Frames → Except Stop Frames) (s : Store), (updateFrames change).run.run s =
      match change s.frames with
      | .ok frames => (.ok (), { s with frames })
      | .error why => (.error why, s) := by
    intro change s
    unfold updateFrames
    rw [run_bind]
    change ((liftStop (change s.frames) >>= fun frames => set { s with frames }) : Action PUnit).run.run s = _
    cases change s.frames <;> rfl
  rw [hrun, hrun]
  generalize change s.frames = r at hchange
  generalize change' s'.frames = r' at hchange
  cases hchange with
  | ok hframes => exact ⟨m, le_refl m, ⟨hm, { hs with frames := hframes }⟩, .ok trivial⟩
  | error hwhy => exact ⟨m, le_refl m, ⟨hm, hs⟩, .error hwhy⟩

/-- The record of a function is found at the span that stands for its own. -/
theorem Store.Matches.function {s s' : Store} (hs : s.Matches m s') (hm : m.Rigid) {key key' : Span}
    (hkey : m.span key key') : (s.function key).Matches m (s'.function key') :=
  (Records.Matches.find? hs.functions hm hkey).getD ⟨rfl, rfl, .none⟩

private theorem inStep_updateFunction {key key' : Span} {change change' : FunctionRecord → FunctionRecord}
    (hkey : m.span key key') (h : ∀ r r', r.Matches m r' → (change r).Matches m (change' r')) :
    InStep Relocated m (fun _ _ _ => True) (updateFunction key change) (updateFunction key' change') := by
  refine inStep_modify (fun s s' hs => ⟨hs.1, ?_⟩) trivial
  exact { hs.2 with functions := Records.Matches.insert hs.2.functions hs.1 hkey (h _ _ (hs.2.function hs.1 hkey)) }

end

/-- The operations on types do the same on stores that are the same but for spans. -/
private theorem typeSimulation : TypeSimulation Relocated where
  type_iff hs _ _ _ _ ht hu := by
    rw [hs.1.type_iff.mp ht, hs.1.type_iff.mp hu]
  primitive hs _ _ := hs.1.type_iff.mpr rfl
  problem hs _ _ c ha := hs.1.problem c ha
  get hs _ _ ht := by
    obtain rfl := hs.1.type_iff.mp ht
    exact hs.2.types.get _
  text hs t t' ht := by
    obtain rfl := hs.1.type_iff.mp ht
    rw [hs.2.types.text hs.1]
    cases Types.text _ t with
    | ok text => exact .ok rfl
    | error f => exact .error rfl
  lookupType {m s s'} hs fr fr' name hfr := by
    obtain rfl := hs.1.frame_iff.mp hfr
    rw [hs.2.frames.lookupType, hs.1.type]
    cases s.frames.lookupType fr name with
    | ok found => exact .ok (.refl (fun _ => rfl) found)
    | error f => exact .error rfl
  reference {m t t'} ht := by
    refine inStep_updateTypes fun ts ts' hm hts => ?_
    obtain rfl := hm.type_iff.mp ht
    have hp : ∀ e e' : TypeEntry, e.Matches m e' → e'.isReferenceTo t = e.isReferenceTo t := by
      intro e e' he
      cases he with
      | reference hu => rw [hm.type_iff.mp hu]
      | primitive | struct | function => rfl
    obtain ⟨hid, hts⟩ := hts.intern hp (.reference ht)
    exact ⟨hm.type_iff.mpr hid.symm, hts⟩
  functionOf {m ps ps' r r'} hps hr := by
    refine inStep_updateTypes fun ts ts' hm hts => ?_
    have hps₀ := hps
    obtain rfl := hm.types_eq hps
    obtain rfl := hm.type_iff.mp hr
    have hp : ∀ e e' : TypeEntry, e.Matches m e' → e'.isFunctionOf ps r = e.isFunctionOf ps r := by
      intro e e' he
      cases he with
      | function hqs hq => rw [hm.types_eq hqs, hm.type_iff.mp hq]
      | primitive | struct | reference => rfl
    obtain ⟨hid, hts⟩ := hts.intern hp (.function hps₀ hr)
    exact ⟨hm.type_iff.mpr hid.symm, hts⟩

/-! ### Structs -/

section

variable {m : Matching} {complete complete' : Span → TypeId → Action TypeId} {fr fr' : FrameId}

private theorem inStep_resolveFields {done done' : List (String × TypeId)} {fields fields' : List FieldDecl}
    (hcomplete : CompletesInStep Relocated m complete complete') (hfr : m.frame fr fr')
    (hdone : FieldsMatch m done done') (hfields : List.Forall₂ (FieldDecl.Matches m.span) fields fields') :
    InStep Relocated m FieldsMatch (resolveFields (resolveTypeWith complete fr false) done fields)
      (resolveFields (resolveTypeWith complete' fr' false) done' fields') := by
  induction fields generalizing m fields' done done' with
  | nil =>
    cases hfields
    exact inStep_pure hdone
  | cons f rest ih =>
    cases hfields with
    | @cons _ f' _ rest' hf hrest =>
      rw [resolveFields, resolveFields, hf.name, (rel_lookup hdone f.name).isSome]
      split
      · exact inStep_refuse_bind typeSimulation hf.span
      · refine (inStep_resolveTypeWith typeSimulation false hf.type hcomplete hfr).bind fun n t t' h₁ ht => ?_
        exact ih (hcomplete.mono h₁) (h₁.frame _ _ hfr) (List.rel_append (hdone.mono h₁) (.cons ⟨rfl, ht⟩ .nil))
          (h₁.span ▸ hrest)

private theorem inStep_setState {t t' : TypeId} {state state' : StructState} (ht : m.type t t')
    (hstate : state.Matches m state') :
    InStep Relocated m (fun _ _ _ => True) (setState t state) (setState t' state') := by
  refine inStep_updateTypes fun ts ts' hm hts => ⟨trivial, ?_⟩
  obtain rfl := hm.type_iff.mp ht
  exact hts.setState t hstate

private theorem inStep_startResolving {t t' : TypeId} (ht : m.type t t') :
    InStep Relocated m (fun _ _ _ => True) (startResolving t) (startResolving t') := by
  refine inStep_updateTypes fun ts ts' hm hts => ⟨trivial, ?_⟩
  obtain rfl := hm.type_iff.mp ht
  exact { hts.setState t .resolving with resolving := by rw [hts.resolving] }

private theorem inStep_stopResolving : InStep Relocated m (fun _ _ _ => True) stopResolving stopResolving := by
  refine inStep_fromTypes (P := fun x y => y.2 = x.2) (fun s s' hs => ?_) fun x y hxy => ?_
  · rw [hs.2.types.resolving]
    cases s.types.resolving.pop with
    | ok x => exact .ok rfl
    | error f => exact .error rfl
  · obtain ⟨_, stack⟩ := x
    obtain ⟨_, stack'⟩ := y
    obtain rfl : stack' = stack := hxy
    exact inStep_updateTypes fun ts ts' _ hts => ⟨trivial, { hts with resolving := rfl }⟩

private theorem inStep_resolveBody {d d' : StructDecl} (hcomplete : CompletesInStep Relocated m complete complete')
    (hd : d.Matches m.span d') : InStep Relocated m TypesMatch (resolveBody complete d) (resolveBody complete' d') := by
  refine inStep_get fun s s' hs => ?_
  refine inStep_lift (rel_unwrap (hs.2.structs.find? hs.1 hd.span)) fun r r' hr => ?_
  subst hr
  have ht : m.type r.type r.type := hs.1.type_iff.mpr rfl
  have hfr : m.frame r.frame r.frame := hs.1.frame_iff.mpr rfl
  refine (inStep_startResolving ht).bind fun n _ _ h₁ _ => ?_
  have hfields := inStep_resolveFields (hcomplete.mono h₁) (h₁.frame _ _ hfr) .nil (h₁.span ▸ hd.fields)
  refine hfields.outcome.bind fun l x y h₂ hxy => ?_
  have ht := (le_trans h₁ h₂).type _ _ ht
  cases hxy with
  | ok hfields =>
    refine inStep_stopResolving.bind fun k _ _ h₃ _ => ?_
    refine (inStep_setState (h₃.type _ _ ht) (.resolved (hfields.mono h₃))).bind fun q _ _ h₄ _ => ?_
    exact inStep_pure ((le_trans h₃ h₄).type _ _ ht)
  | error hwhy =>
    cases hwhy with
    | fault f => exact inStep_fail
    | refused hwhy =>
      refine inStep_stopResolving.bind fun k _ _ h₃ _ => ?_
      have hwhy := h₃.problem ▸ hwhy
      refine (inStep_setState (h₃.type _ _ ht) (.failed hwhy)).bind fun q _ _ h₄ _ => ?_
      exact inStep_throw (.refused (h₄.problem ▸ hwhy))

private theorem inStep_texts (ts : List TypeId) :
    InStep Relocated m (fun _ x y => y = x) (ts.mapM textOf) (ts.mapM textOf) := by
  induction ts with
  | nil => exact inStep_pure rfl
  | cons t rest ih =>
    rw [List.mapM_cons]
    refine .intro fun s s' hs => ?_
    refine inStep_textOf typeSimulation (hs.1.type_iff.mpr rfl) fun text => ?_
    exact ih.bind fun _ _ _ _ h => inStep_pure (h ▸ rfl)

private theorem inStep_cycleFrom {t t' : TypeId} {name : String} (ht : m.type t t') :
    InStep Relocated m (fun _ x y => y = x) (cycleFrom t name) (cycleFrom t' name) := by
  refine inStep_get fun s s' hs => ?_
  obtain rfl := hs.1.type_iff.mp ht
  rw [hs.2.types.resolving]
  exact (inStep_texts _).bind fun _ _ _ _ h => inStep_pure (h ▸ rfl)

private theorem inStep_completeWithin (depth : Nat) :
    CompletesInStep Relocated m (completeWithin depth) (completeWithin depth) := by
  induction depth generalizing m with
  | zero => exact fun _ _ _ _ _ _ _ _ => inStep_fail
  | succ depth ih =>
    intro n a a' t t' _ ha ht
    refine inStep_entry typeSimulation ht fun e e' he => ?_
    cases he with
    | struct hd hstate =>
      cases hstate with
      | unresolved => exact inStep_resolveBody ih hd
      | resolving =>
        dsimp only
        rw [hd.name]
        exact (inStep_cycleFrom ht).bind fun l x y h₁ hxy => hxy ▸ inStep_refuse typeSimulation (h₁.span ▸ ha)
      | resolved => exact inStep_pure ht
      | failed hwhy => exact inStep_throw (.refused hwhy)
    | primitive | reference | function => exact inStep_pure ht

end

/-! ### Declarations -/

section

variable {m : Matching} {fr fr' : FrameId}

private theorem inStep_complete_sizes {s s' : Store} (hs : Relocated m s s') :
    CompletesInStep Relocated m (completeWithin (2 * s.types.size + 2)) (completeWithin (2 * s'.types.size + 2)) := by
  rw [hs.2.types.size]
  exact inStep_completeWithin _

private theorem inStep_resolvePrototype {p p' : Prototype} (hfr : m.frame fr fr') (hp : p.Matches m.span p') :
    InStep Relocated m TypesMatch (resolvePrototype fr p) (resolvePrototype fr' p') :=
  inStep_prototype typeSimulation inStep_complete_sizes hfr hp

theorem inStep_resolveSignature {key key' : Span} {p p' : Prototype} (hfr : m.frame fr fr') (hkey : m.span key key')
    (hp : p.Matches m.span p') :
    InStep Relocated m TypesMatch (resolveSignature fr key p) (resolveSignature fr' key' p') := by
  refine inStep_get fun s s' hs => ?_
  have hrecord := hs.2.function hs.1 hkey
  have hfailure := hrecord.failure
  dsimp only
  rw [hrecord.signature]
  generalize (s.function key).failure = o at hfailure
  generalize (s'.function key').failure = o' at hfailure
  cases (s.function key).signature with
  | some t => exact inStep_pure (hs.1.type_iff.mpr rfl)
  | none =>
    cases hfailure with
    | some hwhy => exact inStep_throw (.refused hwhy)
    | none =>
      refine (inStep_resolvePrototype hfr hp).outcome.bind fun n x y h₁ hxy => .intro fun s s' hs => ?_
      have hkey := h₁.span ▸ hkey
      cases hxy with
      | @ok t t' ht =>
        obtain rfl := hs.1.type_iff.mp ht
        refine (inStep_updateFunction hkey fun r r' hr => ?_).bind fun l _ _ h₂ _ => inStep_pure (h₂.type _ _ ht)
        exact ⟨by rw [hr.variableType], rfl, hr.failure⟩
      | error hwhy =>
        cases hwhy with
        | fault f => exact inStep_fail
        | refused hwhy =>
          refine (inStep_updateFunction hkey fun r r' hr => ?_).bind fun l _ _ h₂ _ =>
            inStep_throw (.refused (h₂.problem ▸ hwhy))
          exact ⟨hr.variableType, hr.signature, .some hwhy⟩

private theorem inStep_declare {v v' : Variable} (hfr : m.frame fr fr') (hv : v.Matches m v') :
    InStep Relocated m (fun _ _ _ => True) (Action.declare fr v) (Action.declare fr' v') := by
  refine inStep_updateFrames fun fs fs' hm hfs => ?_
  obtain rfl := hm.frame_iff.mp hfr
  exact hfs.declare hm fr hv

theorem inStep_registerFunction {h h' : Header} (hfr : m.frame fr fr') (hh : h.Matches m h') :
    InStep Relocated m (fun _ _ _ => True) (registerFunction fr h) (registerFunction fr' h') := by
  refine inStep_get fun s s' hs => ?_
  rw [(hs.2.function hs.1 hh.span).variableType, hh.exported]
  split
  · exact inStep_pure trivial
  refine (inStep_declare hfr hh.binding).bind fun n _ _ h₁ _ => ?_
  have hknown : InStep Relocated n (fun _ _ _ => True) (updateFunction h.span ({ · with variableType := some .empty }))
      (updateFunction h'.span ({ · with variableType := some .empty })) :=
    inStep_updateFunction (h₁.span ▸ hh.span) fun r r' hr => { hr with variableType := rfl }
  refine hknown.bind fun l _ _ h₂ _ => .intro fun s s' hs => ?_
  split
  · exact inStep_declare (hs.1.frame_iff.mpr rfl) (hh.mono (le_trans h₁ h₂)).binding
  · exact inStep_pure trivial

private theorem inStep_nest (hfr : m.frame fr fr') :
    InStep Relocated m Matching.frame (Action.nest fr) (Action.nest fr') := by
  refine inStep_get fun s s' hs => ?_
  obtain rfl := hs.1.frame_iff.mp hfr
  refine inStep_lift (hs.2.frames.nest fr) fun r r' hr => ?_
  obtain ⟨id, frames⟩ := r
  obtain ⟨id', frames'⟩ := r'
  obtain ⟨rfl, hframes⟩ : id' = id ∧ frames.Matches m frames' := hr
  exact fun _ _ _ => ⟨m, le_refl m, ⟨hs.1, { hs.2 with frames := hframes }⟩, .ok (hs.1.frame_iff.mpr rfl)⟩

end

theorem simulation : Simulation Relocated where
  toTypeSimulation := typeSimulation
  complete := inStep_complete_sizes
  module hs := hs.1.frame_iff.mpr rfl
  lookup hs fr fr' name hfr := by
    obtain rfl := hs.1.frame_iff.mp hfr
    exact hs.2.frames.lookup _ name
  typeOf hs v v' hv := by
    unfold Store.typeOf
    rw [hv.kind.isFunction, (hs.2.function hs.1 hv.span).variableType]
    split
    · exact .refl (fun _ => hs.1.type_iff.mpr rfl) _
    · exact hv.type
  signature := inStep_resolveSignature
  register := inStep_registerFunction
  nest := inStep_nest
  declare := inStep_declare

/-! ### Structs and functions of a module -/

section

variable {m : Matching} {fr fr' : FrameId}

private theorem inStep_declareType {name : String} {t t' : TypeId} {a a' : Span}
    (hfr : m.frame fr fr') (ht : m.type t t')
    (ha : m.span a a') :
    InStep Relocated m (fun _ _ _ => True) (Action.declareType fr name t a) (Action.declareType fr' name t' a') := by
  refine inStep_updateFrames fun fs fs' hm hfs => ?_
  obtain rfl := hm.frame_iff.mp hfr
  obtain rfl := hm.type_iff.mp ht
  exact hfs.declareType hm fr name t ha

theorem inStep_registerStruct {d d' : StructDecl} (hfr : m.frame fr fr') (hd : d.Matches m.span d') :
    InStep Relocated m (fun _ _ _ => True) (registerStruct fr d) (registerStruct fr' d') := by
  refine inStep_get fun s s' hs => ?_
  obtain rfl := hs.1.frame_iff.mp hfr
  rw [(hs.2.structs.find? hs.1 hd.span).isSome, hd.name, hd.exported]
  split
  · exact inStep_pure trivial
  have hadd : InStep Relocated m TypesMatch (updateTypes (·.addStruct d)) (updateTypes (·.addStruct d')) := by
    refine inStep_updateTypes fun ts ts' hm hts => ?_
    obtain ⟨hid, hts⟩ := hts.add (TypeEntry.Matches.struct hd .unresolved)
    exact ⟨hm.type_iff.mpr hid.symm, hts⟩
  refine hadd.bind fun n t t' h₁ ht => ?_
  have hd := h₁.span ▸ hd.span
  refine (inStep_declareType (h₁.frame _ _ hfr) ht hd).bind fun l _ _ h₂ _ => ?_
  have hd := h₂.span ▸ hd
  have ht := h₂.type _ _ ht
  refine InStep.bind (Q := fun _ _ _ => True) (inStep_modify (fun s s' hs => ?_) trivial) fun k _ _ h₃ _ =>
    .intro fun s s' hs => ?_
  · obtain rfl := hs.1.type_iff.mp ht
    exact ⟨hs.1, { hs.2 with structs := Records.Matches.insert hs.2.structs hs.1 hd rfl }⟩
  · split
    · exact inStep_declareType (hs.1.frame_iff.mpr rfl) (h₃.type _ _ ht) (h₃.span ▸ hd)
    · exact inStep_pure trivial

theorem inStep_resolveStruct {d d' : StructDecl} (hfr : m.frame fr fr') (hd : d.Matches m.span d') :
    InStep Relocated m TypesMatch (resolveStruct fr d) (resolveStruct fr' d') := by
  refine (inStep_registerStruct hfr hd).bind fun n _ _ h₁ _ => inStep_get fun s s' hs => ?_
  have hd := h₁.span ▸ hd.span
  refine inStep_lift (rel_unwrap (hs.2.structs.find? hs.1 hd)) fun r r' hr => ?_
  subst hr
  exact inStep_complete simulation hd (hs.1.type_iff.mpr rfl)

end

end RainCheck

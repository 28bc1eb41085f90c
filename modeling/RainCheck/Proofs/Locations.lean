import RainCheck.Proofs.Addresses
import RainCheck.Proofs.Locating
import RainCheck.Proofs.RevisitingExpr

/-!
# Locations and places

Two recursions classify chains of member accesses: `Expr.place?` gives the variable in front and the
way to a part of it, `Expr.hasLocation` says whether the part can be stored into.  They agree on
every node that has a type (`Expr.Located`).
* A place has a location if its variable is mutable or a reference stands on the way to it; the way leads through fields
  of resolved structs, from the type of the variable to the type of the node.
* Without a place there is a location if one of the bases in the chain is a reference.

So an assignment whose target has no location is refused for one of two reasons, told apart by whether there is a place.
-/

namespace RainCheck

open RainCheck.Action Check

/-! ### Ways through structs -/

namespace Types

/-- The type of a field of a struct, or of a struct behind a reference. -/
def field? (ts : Types) (t : TypeId) (index : Nat) : Option TypeId := do
  let outer ← (ts.load t).toOption
  let entry ← (ts.get outer).toOption
  let (_, state) ← entry.struct?
  let field ← state.fields[index]?
  return field.2

/-- The type at the end of a way along field positions. -/
def along? (ts : Types) (t : TypeId) (path : List Nat) : Option TypeId := path.foldlM ts.field? t

private theorem along?_append {ts : Types} {t u : TypeId} {path : List Nat} {index : Nat}
    (h : ts.along? t path = some u) :
    ts.along? t (path ++ [index]) = ts.field? u index := by
  unfold along? at h ⊢
  rw [List.foldlM_append, h, Option.bind_eq_bind, Option.bind_some, List.foldlM_cons]
  exact bind_pure (ts.field? u index)

end Types

private theorem Store.HasField.field? {s : Store} {t u : TypeId} {index : Nat} (h : s.HasField t index u) :
    s.types.field? t index = some u := by
  obtain ⟨w, decl, fields, name, hload, hstruct, hfield⟩ := h
  unfold Types.field?
  have hload : s.types.load t = .ok w := hload
  simp only [hload, Except.toOption, Option.bind_eq_bind, Option.bind_some,
    Store.get_of_entry hstruct, TypeEntry.struct?,
    StructState.fields, hfield]
  rfl

/-- The flag of a checked node says whether its type is a reference. -/
private theorem Info.Typed.reference_iff {s : Store} {i : Info} {t : TypeId} (h : i.Typed s t) :
    i.reference = true ↔ s.IsReference t := by
  refine ⟨h.isReference, fun ⟨u, hu⟩ => ?_⟩
  have href := h.reference
  rw [Types.isReference, Store.get_of_entry hu] at href
  exact (Except.ok.inj href).symm

namespace Expr

/-! ### Chains of member accesses -/

/-- The bases in the chain of member accesses that an expression ends in, that of the last access first. -/
def bases : Expr → List Expr
  | .member _ base _ _ _ => base :: bases base
  | _ => []

/-- A place has a location if its variable is mutable or it is reached through a reference. -/
private theorem hasLocation_of_place {e : Expr} {p : Place} (h : e.place? = .ok (some p)) :
    e.hasLocation = .ok (p.root.mutable || p.indirect) := by
  cases e with
  | identifier i name binding =>
    cases binding with
    | none => cases h
    | some v =>
      cases h
      rfl
  | member i base name span index =>
    rw [place?] at h
    cases hbase : base.place? with
    | error f =>
      rw [hbase] at h
      cases h
    | ok found =>
      rw [hbase, ok_bind] at h
      cases found with
      | none => cases h
      | some q =>
        cases h
        rw [hasLocation, hasLocation_of_place hbase]
        cases base.info.reference <;> simp
  | _ => cases h

/-- Without a place there is a location if one of the bases is a reference. -/
private theorem hasLocation_of_no_place {e : Expr} (h : e.place? = .ok none) :
    e.hasLocation = .ok (e.bases.any (·.info.reference)) := by
  cases e with
  | identifier i name binding =>
    cases binding with
    | none => cases h
    | some v => cases h
  | member i base name span index =>
    rw [place?] at h
    cases hbase : base.place? with
    | error f =>
      rw [hbase] at h
      cases h
    | ok found =>
      rw [hbase, ok_bind] at h
      cases found with
      | some q => cases h
      | none =>
        rw [hasLocation, bases, List.any_cons, hasLocation_of_no_place hbase]
        cases base.info.reference <;> simp
  | _ => rfl

/-! ### Nodes with a type -/

/-- What the place and the location of an expression with a type have to do with each other. -/
inductive Located (s : Store) (e : Expr) (t : TypeId) : Prop where
  /-- The way of the place leads from the type of the variable to that of the expression. -/
  | place {p : Place} {start : TypeId} (hplace : e.place? = .ok (some p))
      (hlocation : e.hasLocation = .ok (p.root.mutable || p.indirect)) (hroot : (s.typeOf p.root).value? = some start)
      (hway : s.types.along? start p.path = some t)
  | transient {b : Bool} (hplace : e.place? = .ok none) (hlocation : e.hasLocation = .ok b)
      (hreference : b = true ↔ ∃ base ∈ e.bases, ∃ u, base.type? = some u ∧ s.IsReference u)

section

variable {L : Listing} {s : Store} {e : Expr} {t : TypeId}

/-- The way of a place leads to the type of the node. -/
private theorem along_of_place {e : Expr} {t : TypeId} {p : Place} (he : AllUpright L s e.nodes) (ht : e.type? = some t)
    (h : e.place? = .ok (some p)) :
    ∃ start, (s.typeOf p.root).value? = some start ∧ s.types.along? start p.path = some t := by
  cases e with
  | identifier i name binding =>
    obtain ⟨v, rfl, hv⟩ := (he _ (self_mem_nodes _)).shaped t ht
    cases h
    exact ⟨t, hv, rfl⟩
  | member i base name span index =>
    rw [nodes, allUpright_cons] at he
    obtain ⟨u, hu, hfield⟩ := he.1.shaped t ht
    rw [place?] at h
    cases hbase : base.place? with
    | error f =>
      rw [hbase] at h
      cases h
    | ok found =>
      rw [hbase, ok_bind] at h
      cases found with
      | none => cases h
      | some q =>
        cases h
        obtain ⟨start, hroot, hway⟩ := along_of_place he.2 hu hbase
        refine ⟨start, hroot, ?_⟩
        dsimp only
        rw [Types.along?_append hway, hfield.field?]
  | _ => cases h

/-- All bases in the chain of a node with a type have types. -/
private theorem typed_of_mem_bases {e base : Expr} {t : TypeId} (he : AllUpright L s e.nodes) (ht : e.type? = some t)
    (hbase : base ∈ e.bases) : ∃ u, base.info.Typed s u := by
  cases e with
  | member i next name span index =>
    rw [nodes, allUpright_cons] at he
    obtain ⟨u, hu, -⟩ := he.1.shaped t ht
    rw [bases, List.mem_cons] at hbase
    rcases hbase with rfl | hbase
    · exact ⟨u, (he.2 _ (self_mem_nodes _)).info.typed u hu⟩
    · exact typed_of_mem_bases he.2 hu hbase
  | _ => cases hbase

private theorem located_of_allUpright (he : AllUpright L s e.nodes) (ht : e.type? = some t) : e.Located s t := by
  have hsome : e.info.type.isSome = true := Option.isSome_iff_exists.mpr ⟨t, ht⟩
  obtain ⟨_ | p, hplace⟩ := place_of_allUpright he hsome
  · refine .transient hplace (hasLocation_of_no_place hplace) ?_
    rw [List.any_eq_true]
    refine exists_congr fun base => and_congr_right fun hbase => ?_
    obtain ⟨u, hu⟩ := typed_of_mem_bases he ht hbase
    refine ⟨fun href => ⟨u, hu.type, hu.reference_iff.mp href⟩, fun ⟨v, hv, href⟩ => hu.reference_iff.mpr ?_⟩
    rwa [show u = v from Option.some.inj (hu.type.symm.trans hv)]
  · obtain ⟨start, hroot, hway⟩ := along_of_place he ht hplace
    exact .place hplace (hasLocation_of_place hplace) hroot hway

end

end Expr

/-! ### Compiled modules -/

section

variable {options : Options} {decls todo : List Decl} {done rest : List Item} {item : Item} {q : Progress} {s : Store}
  {file : SourceFile} {u : CompiledUnit} {m : Module} {f : FunctionDecl}

/-- Between two declarations a tree can be walked through, whatever it carries. -/
private theorem Resting.steady (h : Resting decls todo s) : s.Steady (openListing decls) :=
  ⟨h.sound.opened, h.idle, h.tidy⟩

/-- What holds while bodies are checked: all functions of the module are upright, whether they are
checked already or not. -/
def Upheld (options : Options) (decls : List Decl) (done rest : List Item) (q : Progress) : Prop :=
  Checked options decls done rest q ∧
    ∀ i ∈ done ++ rest, ∀ f, i.decl = .function f → f.Upright (openListing decls) q.store

private theorem Upheld.step (hparsed : Parsed decls) (h : Upheld options decls done (item :: rest) q) :
    ∃ item' q', Phase.bodies.step options item q = .ok (item', q') ∧
      Upheld options decls (done ++ [item']) rest q' := by
  obtain ⟨hchecked, hupright⟩ := h
  obtain ⟨item', q', hstep, hchecked', hg⟩ := Checked.step hparsed hchecked
  refine ⟨item', q', hstep, hchecked', fun i hi f hf => ?_⟩
  rw [List.append_assoc, List.singleton_append, List.mem_append, List.mem_cons] at hi
  rcases hi with hi | rfl | hi
  · exact (hupright i (List.mem_append_left _ hi) f hf).grow hg
  · rcases bodies_step_cases hstep hf with hsame | ⟨hrunning, f₀, st, rfl, hrun⟩
    · exact (hupright item (by simp) f (hsame ▸ hf)).grow hg
    · have hresting := hchecked.1.resting hrunning
      have hregistered := hresting.functions f₀ (hchecked.1.owns hrunning _ List.mem_cons_self rfl)
      have hf₀ := hupright ⟨.function f₀, false⟩ (by simp) f₀ rfl
      have hsteps : Check.Steps (openListing decls) { store := q.store }
          (functionWith options FrameId.module f₀.info f₀.header f₀.body
            fun c frame => Check.block c frame f₀.body) _ :=
        Check.steps_functionWith (fun _ => trivial) ⟨hresting.steady, fun _ => nofun⟩ hresting.sound.frames.module_lt
          hregistered hf₀ fun c fr st hr hb => Check.steps_block (fun _ => trivial) f₀.body hr hb
      obtain ⟨-, -, hf', -, -⟩ := (Check.steps_iff hrun).mp hsteps
      rw [bodies_step_store hrunning hstep, hrun]
      exact hf'
  · exact (hupright i (List.mem_append_right _ (List.mem_cons_of_mem _ hi)) f hf).grow hg

/-- All functions of a compiled module are upright, also those that are refused or not checked at all. -/
private theorem upright_of_compile (hdecls : file.declarations = .ok decls) (hcompile : file.compile options = .ok u)
    (hm : u.module = some m) (hf : .function f ∈ m.decls) : f.Upright (openListing decls) m.store := by
  have hparsed := file.parsed_of_declarations hdecls
  obtain ⟨items, p, items', q, hprepared, hitems, hbodies, hmdecls, hstore⟩ :=
    SourceFile.items_of_compile hdecls hcompile hm
  obtain ⟨_, _, hprepared', -, hunderway⟩ := preparation_ends options hparsed
  cases hprepared.symm.trans hprepared'
  have hstart : Upheld options decls [] items p := by
    refine ⟨⟨hunderway, by simp⟩, fun i hi g hg => hparsed.upright ?_ _⟩
    rw [← hitems, ← hg]
    exact List.mem_map_of_mem hi
  obtain ⟨_, _, hbodies', -, hupright⟩ :=
    Phase.run_ends (Upheld options decls) (fun _ _ _ _ => Upheld.step hparsed) hstart
  cases hbodies.symm.trans hbodies'
  rw [hmdecls] at hf
  obtain ⟨i, hi, hdecl⟩ := List.mem_map.mp hf
  rw [hstore]
  exact hupright i (by simpa using hi) f hdecl

/-- Every node with a type is located. -/
private theorem located_of_compile {n : Expr} {t : TypeId} (hdecls : file.declarations = .ok decls)
    (hcompile : file.compile options = .ok u) (hm : u.module = some m) (hf : .function f ∈ m.decls)
    (hn : n ∈ Expr.nodesBlock f.body) (ht : n.type? = some t) : n.Located m.store t :=
  Expr.located_of_allUpright
    (fun k hk => (upright_of_compile hdecls hcompile hm hf).body k (Expr.nodesBlock_closed f.body n hn hk)) ht

end

/-! ### Targets of assignments -/

/-- How an assignment is refused whose target has no location. -/
inductive Expr.RejectedAs (target : Expr) : Diagnostic → Prop where
  | immutable {p : Place} (hplace : target.place? = .ok (some p)) :
      RejectedAs target ⟨target.span, .immutableAssignment p.root.name⟩
  | transient (hplace : target.place? = .ok none) : RejectedAs target ⟨target.span, .notAddressable⟩

section

variable {s : Store} {info : Info} {target source e : Expr} {blame : Span} {actual : Option TypeId} {expected : TypeId}

/-- A target without a location is refused before anything else is asked. -/
private theorem ends_assignment (hplace : ∃ p, target.place? = .ok p) (hlocation : target.hasLocation = .ok false) :
    (assignmentRule info target source).Ends s (fun _ _ => False) fun d _ => target.RejectedAs d := by
  obtain ⟨_ | p, hplace⟩ := hplace
  · simp only [assignmentRule, expectMutable, hplace, hlocation, ends_bind, ends_lift, ends_pure,
      Bool.not_false, if_true,
      ends_refuse]
    exact .transient hplace
  · have hmutable : (!p.root.mutable && !p.indirect) = true := by
      rw [Expr.hasLocation_of_place hplace] at hlocation
      rw [← Bool.not_or, Except.ok.inj hlocation]
      rfl
    simp only [assignmentRule, expectMutable, hplace, ends_bind, ends_lift, hmutable, if_true, ends_refuse]
    exact .immutable hplace

private theorem triple_expectType : Triple (fun _ => True) (expectType blame actual expected) (fun _ _ => True)
    fun d _ => d.kind = .typeMismatch := by
  unfold expectType
  refine Triple.bind triple_lift fun t => triple_fromTypes fun s fits _ _ => ?_
  split
  · exact triple_fromTypes fun _ _ _ _ => triple_fromTypes fun _ _ _ _ _ _ => rfl
  · exact fun _ _ => trivial

/-- A target with a location is not what an assignment is refused for. -/
private theorem triple_assignment (hplace : ∃ p, target.place? = .ok p) (hlocation : target.hasLocation = .ok true) :
    Triple (fun _ => True) (assignmentRule info target source) (fun _ _ => True) fun d _ => d.kind = .typeMismatch := by
  have hmutable : Triple (fun _ => True) (expectMutable target) (fun _ _ => True) fun d _ =>
      d.kind = .typeMismatch := by
    unfold expectMutable
    obtain ⟨_ | p, hplace⟩ := hplace
    · rw [hplace]
      exact fun _ _ => trivial
    · have hfalse : (!p.root.mutable && !p.indirect) = false := by
        rw [Expr.hasLocation_of_place hplace] at hlocation
        rw [← Bool.not_or, Except.ok.inj hlocation]
        rfl
      rw [hplace]
      refine Triple.bind triple_lift fun found => triple_and fun hfound => ?_
      cases hfound
      dsimp only
      rw [hfalse]
      exact fun _ _ => trivial
  refine hmutable.bind fun _ => Triple.bind triple_lift fun b => triple_and fun hb => ?_
  obtain rfl : b = true := Except.ok.inj (hb.symm.trans hlocation)
  refine Triple.bind triple_lift fun t => triple_fromTypes fun s w _ _ => ?_
  refine Triple.bind (triple_expectType.mono (fun _ _ => trivial) (fun _ _ h => h) fun _ _ h => h) fun _ => ?_
  exact fun _ _ => trivial

section

variable {rule : Action Info} {st st' : CheckState} {i : Info} {R : Diagnostic → Prop} {d : Diagnostic}

/-- A rule that refuses its node ends the walk. -/
private theorem conclude_refuses (hopen : st.stop = none) (h : rule.Ends st.store (fun _ _ => False) fun d _ => R d)
    (hrun : (conclude info rule).run st = (i, st')) : ∃ d, st'.stop = some (.refused d) ∧ R d := by
  unfold Ends at h
  rcases hrule : rule.run.run st.store with ⟨(d | g) | j, s⟩ <;> rw [hrule] at h
  · cases hrun.symm.trans (conclude_refused hopen hrule)
    exact ⟨d, rfl, h⟩
  · exact h.elim
  · exact h.elim

/-- A node is refused with what its rule refuses it for. -/
private theorem conclude_blames {Q : Info → Store → Prop} (hopen : st.stop = none)
    (h : Triple (fun _ => True) rule Q fun d _ => R d) (hrun : (conclude info rule).run st = (i, st'))
    (hstop : st'.stop = some (.refused d)) : R d := by
  have hend := h st.store trivial
  rwa [conclude_refused_inv hopen hrun hstop] at hend

end

end

/-- What becomes of an assignment whose target and source are checked, with the problems of the compilation. -/
inductive Expr.Assigned (errors : List Diagnostic) (target : Expr) (after : CheckState) : Prop where
  /-- A target without a location is refused, and the problem is reported. -/
  | rejected {d : Diagnostic} (hlocation : target.hasLocation = .ok false) (hrejected : target.RejectedAs d)
      (hstop : after.stop = some (.refused d)) (hreported : d ∈ errors)
  /-- Otherwise the target is not what the assignment is refused for. -/
  | accepted (hlocation : target.hasLocation = .ok true)
      (hother : ∀ d, after.stop = some (.refused d) → d.kind = .typeMismatch)

section

variable {options : Options} {decls : List Decl} {file : SourceFile} {u : CompiledUnit} {c : Context} {fr : FrameId}
  {info : Info} {target target' source source' : Expr} {st st₁ st₂ : CheckState}

/-- A target that is checked has a location or none, and the assignment is refused accordingly. -/
private theorem Visit.Reached.assigned (hdecls : file.declarations = .ok decls)
    (hcompile : file.compile options = .ok u)
    (h : Visit.Reached options decls ⟨c, fr, .expr (.assignment info target source), st⟩)
    (htarget : (Check.expr c fr target).run st = (target', st₁))
    (hsource : (Check.expr c fr source).run st₁ = (source', st₂)) (hopen : st₂.stop = none) :
    target'.Assigned u.errors (Visit.after ⟨c, fr, .expr (.assignment info target source), st⟩) := by
  obtain ⟨σ, hready, ⟨b, hfresh⟩, -⟩ := h.sound (file.parsed_of_declarations hdecls)
  have huntyped := hfresh.untyped
  have hopen₁ : st₁.stop = none := (steady_expr source).opened hsource hopen
  have hopen₀ : st.stop = none := (steady_expr target).opened htarget hopen₁
  have hchecked : ∃ s, target'.Annotated s c.returns fr := by
    cases hfresh with
    | assignment hf =>
      exact ⟨_, ((walks_iff htarget).mp (checks_expr target hf c fr σ st hready.left)).2 hopen₁⟩
  obtain ⟨s, hannotated⟩ := hchecked
  obtain ⟨i, st₃, hi⟩ : ∃ i st₃, (conclude info (assignmentRule info target' source')).run st₂ = (i, st₃) := ⟨_, _, rfl⟩
  have hafter : Visit.after ⟨c, fr, .expr (.assignment info target source), st⟩ = st₃ := by
    unfold Visit.after
    dsimp only
    rw [Check.expr, run_open hopen₀ (by exact skip_untyped huntyped), run_bind_of htarget, run_bind_of hsource,
      run_bind_of hi]
    rfl
  obtain ⟨_ | _, hlocation⟩ := hannotated.hasLocation
  · obtain ⟨d, hstop, hrejected⟩ := conclude_refuses hopen (ends_assignment hannotated.place hlocation) hi
    rw [← hafter] at hstop
    exact .rejected hlocation hrejected hstop (h.reported hdecls hcompile hstop)
  · refine .accepted hlocation fun d hstop => ?_
    rw [hafter] at hstop
    exact conclude_blames hopen (triple_assignment hannotated.place hlocation) hi hstop

end

/--
Locations and places agree.
* On every node of a compiled module that has a type: if it has a place, it has a location exactly if the variable is
  mutable or the place is reached through a reference, and the way of the place leads from the type of the variable to
  that of the node; without a place, it has a location exactly if a base of its member accesses is a reference.
* An assignment whose target has no location is refused and reported, as a store into something immutable if the target
  has a place and as one into something without an address otherwise; with a location, its target is not what it is
  refused for.
-/
theorem locations_agree (file : SourceFile) (options : Options) (decls : List Decl) (u : CompiledUnit)
    (hdecls : file.declarations = .ok decls) (hcompile : file.compile options = .ok u) :
    (∀ m f n t, u.module = some m → .function f ∈ m.decls → n ∈ Expr.nodesBlock f.body → n.type? = some t →
      n.Located m.store t) ∧
    ∀ c fr info target source st target' st₁ source' st₂,
      Visit.Reached options decls ⟨c, fr, .expr (.assignment info target source), st⟩ →
      (Check.expr c fr target).run st = (target', st₁) → (Check.expr c fr source).run st₁ = (source', st₂) →
      st₂.stop = none →
      target'.Assigned u.errors (Visit.after ⟨c, fr, .expr (.assignment info target source), st⟩) :=
  ⟨fun _ _ _ _ hm hf hn ht => located_of_compile hdecls hcompile hm hf hn ht,
    fun _ _ _ _ _ _ _ _ _ _ h htarget hsource hopen => h.assigned hdecls hcompile htarget hsource hopen⟩

/-- A function that stores into a field of an immutable parameter, through a reference. -/
def storedField : SourceFile := ⟨"stored", "struct P{x:i32}fn f(p:&P){p.x=1;}".toList⟩

/-- Whether a node is an assignment to the first field of something behind a reference. -/
def Expr.storesFirst : Expr → Bool
  | .assignment i target _ =>
    match target.place? with
    | .ok (some p) => i.type.isSome && target.type?.isSome && p.path == [0] && p.indirect
    | _ => false
  | _ => false

private theorem Expr.storesFirst_eq_true {n : Expr} (h : n.storesFirst = true) : ∃ i target source p t,
    n = .assignment i target source ∧ i.type.isSome = true ∧ target.type? = some t ∧ target.place? = .ok (some p) ∧
      p.path = [0] := by
  unfold storesFirst at h
  split at h
  · rename_i i target source
    split at h
    · rename_i p hplace
      simp only [Bool.and_eq_true, beq_iff_eq] at h
      obtain ⟨⟨⟨hi, htarget⟩, hpath⟩, -⟩ := h
      obtain ⟨t, ht⟩ := Option.isSome_iff_exists.mp htarget
      exact ⟨i, target, source, p, t, rfl, hi, ht, hplace, hpath⟩
    · cases h
  · cases h

/-- The way to the field leads through the reference, and the target has a location. -/
theorem locations_agree_storedField : ∃ decls u m p start t c fr info target source st target' st₁,
    storedField.declarations = .ok decls ∧ storedField.compile {} = .ok u ∧ u.module = some m ∧
      target'.place? = .ok (some p) ∧ p.path = [0] ∧ (m.store.typeOf p.root).value? = some start ∧
      m.store.types.along? start p.path = some t ∧ target'.type? = some t ∧
      Visit.Reached {} decls ⟨c, fr, .expr (.assignment info target source), st⟩ ∧
      (Check.expr c fr target).run st = (target', st₁) ∧ target'.hasLocation = .ok true := by
  have hrun : (storedField.compile {}).toOption.any (fun u => u.hasNode Expr.storesFirst) = true := by
    decide +kernel
  cases hcompile : storedField.compile {} with
  | error f =>
    rw [hcompile] at hrun
    cases hrun
  | ok u =>
    rw [hcompile] at hrun
    obtain ⟨m, f, n, hm, hf, hn, hp⟩ := CompiledUnit.hasNode_eq_true hrun
    obtain ⟨i, target', source', p, t, rfl, hi, ht, hplace, hpath⟩ := Expr.storesFirst_eq_true hp
    obtain ⟨decls, hdecls, hparsed⟩ := SourceFile.declarations_of_compile hcompile hm
    obtain ⟨hlocated, hassigned⟩ := locations_agree storedField {} decls u hdecls hcompile
    have htarget : target' ∈ Expr.nodesBlock f.body := by
      refine Expr.nodesBlock_closed f.body _ hn ?_
      rw [Expr.nodes]
      exact List.mem_cons_of_mem _ (List.mem_append_left _ target'.self_mem_nodes)
    obtain ⟨v, hreached, hfinds⟩ := reached_of_typed hdecls hcompile hm hf hn hi
    cases hfinds with
    | @expr c fr st st' e _ hwalk hstop =>
      obtain ⟨σ, -, ⟨b, hfresh⟩, -⟩ := hreached.sound hparsed
      cases Expr.walked hfresh.untyped hwalk hstop with
      | @assignment info _ target _ source _ st₁ st₂ _ hrun₁ hrun₂ hconclude =>
        have hopen := conclude_opened hconclude hstop
        have hafter : (Visit.after ⟨c, fr, .expr (.assignment info target source), st⟩).stop = none := by
          unfold Visit.after
          dsimp only
          rw [hwalk]
          exact hstop
        cases hlocated m f target' t hm hf htarget ht with
        | transient hnone => cases hplace.symm.trans hnone
        | @place _ start hplace' _ hroot hway =>
          cases hplace.symm.trans hplace'
          refine ⟨decls, u, m, p, start, t, c, fr, info, target, source, st, target', st₁,
            hdecls, rfl, hm, hplace, hpath,
            hroot, hway, ht, hreached, hrun₁, ?_⟩
          cases hassigned c fr info target source st target' st₁ source' st₂ hreached hrun₁ hrun₂ hopen with
          | accepted hlocation => exact hlocation
          | rejected _ _ hrejected => cases hafter.symm.trans hrejected

/-- A parameter that is no reference is immutable; a number has no address. -/
example : (SourceFile.compile {} ⟨"refused", "fn f(a:i32){a=1;}fn g(){1=2;}".toList⟩).toOption.map
    (fun u => u.errors.map (·.kind)) = some [.immutableAssignment, .notAddressable] := by
  decide +kernel

end RainCheck

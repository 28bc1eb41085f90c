import RainCheck.Proofs.Nodes

/-!
# References to bindings

Which storage the references of an accepted module refer to.  The operand of `&` has a location; if it is a variable
followed by member accesses (`Expr.Chain`), this location is
* in the storage of a mutable variable,
* or behind a reference that one of the accesses goes through,
* or the storage of a variable that holds a reference: such a variable has a location even if it is immutable.
-/

namespace RainCheck

/-- An expression is a variable followed by member accesses.  The bases of the accesses are given,
that of the last one first. -/
inductive Expr.Chain : Expr → (root : Option Variable) → (bases : List Expr) → Prop where
  | root {i : Info} {name : String} {root : Option Variable} : Chain (.identifier i name root) root []
  | member {i : Info} {base : Expr} {name : String} {span : Span} {index : Nat} {root : Option Variable}
      {bases : List Expr} (hbase : Chain base root bases) : Chain (.member i base name span index) root (base :: bases)

/-- A type is that of references to another one. -/
def Store.IsReference (s : Store) (t : TypeId) : Prop := ∃ u, s.typeAt? t = some (.reference u)

section

variable {s : Store} {ret : Option TypeId} {fr : FrameId} {e : Expr}

theorem Info.Typed.isReference {i : Info} {t : TypeId} (h : i.Typed s t) (hi : i.reference = true) :
    s.IsReference t := by
  have href := h.reference
  unfold Types.isReference at href
  cases hget : s.types.get t with
  | error f => simp [hget] at href
  | ok entry =>
    rw [hget, hi] at href
    cases entry with
    | reference u => exact ⟨u, Store.entry_of_get hget⟩
    | primitive _ | struct _ _ | function _ _ => cases href

namespace Expr.Annotated

/-- The nodes of an annotated tree are annotated. -/
theorem of_mem_nodes (h : e.Annotated s ret fr) : ∀ n ∈ e.nodes, ∃ ret' fr', n.Annotated s ret' fr' := by
  induction h with
  | integer hi =>
    simp only [nodes, List.mem_singleton, forall_eq]
    exact ⟨none, 0, .integer hi⟩
  | float hi =>
    simp only [nodes, List.mem_singleton, forall_eq]
    exact ⟨none, 0, .float hi⟩
  | boolean hi =>
    simp only [nodes, List.mem_singleton, forall_eq]
    exact ⟨none, 0, .boolean hi⟩
  | identifier hi hv =>
    simp only [nodes, List.mem_singleton, forall_eq]
    exact ⟨none, 0, .identifier hi hv⟩
  | member hbase hu hload hstruct hindex hfield hi ih =>
    simp only [nodes, List.forall_mem_cons]
    exact ⟨⟨_, _, .member hbase hu hload hstruct hindex hfield hi⟩, ih⟩
  | call hcallee hargs hf hfunction hfits hi ihcallee ihargs =>
    simp only [nodes, List.forall_mem_cons, List.forall_mem_append, mem_nodesAll]
    refine ⟨⟨_, _, .call hcallee hargs hf hfunction hfits hi⟩, ihcallee, ?_⟩
    rintro n ⟨e, he, hn⟩
    exact ihargs e he n hn
  | builtinCall hb hargs harity hu htakes hi ih =>
    simp only [nodes, List.forall_mem_cons, mem_nodesAll]
    refine ⟨⟨_, _, .builtinCall hb hargs harity hu htakes hi⟩, ?_⟩
    rintro n ⟨e, he, hn⟩
    exact ih e he n hn
  | negation hop hoperand hu hload hi ih =>
    simp only [nodes, List.forall_mem_cons]
    exact ⟨⟨_, _, .negation hop hoperand hu hload hi⟩, ih⟩
  | address hoperand hlocation hu ht hi ih =>
    simp only [nodes, List.forall_mem_cons]
    exact ⟨⟨_, _, .address hoperand hlocation hu ht hi⟩, ih⟩
  | binary hlhs hrhs hu hv hleft hright htakes hi ihlhs ihrhs =>
    simp only [nodes, List.forall_mem_cons, List.forall_mem_append]
    exact ⟨⟨_, _, .binary hlhs hrhs hu hv hleft hright htakes hi⟩, ihlhs, ihrhs⟩
  | assignment htarget hsource hlocation hu hload hfits hi ihtarget ihsource =>
    simp only [nodes, List.forall_mem_cons, List.forall_mem_append]
    exact ⟨⟨_, _, .assignment htarget hsource hlocation hu hload hfits hi⟩, ihtarget, ihsource⟩
  | structLiteral hinits hstruct honce hfits hi ih =>
    simp only [nodes, List.forall_mem_cons, mem_nodesFields]
    refine ⟨⟨_, _, .structLiteral hinits hstruct honce hfits hi⟩, ?_⟩
    rintro n ⟨f, hf, hn⟩
    exact ih f hf n hn
  | letBinding hinit hv ht hfits hfound hi ih =>
    simp only [nodes, List.forall_mem_cons]
    exact ⟨⟨_, _, .letBinding hinit hv ht hfits hfound hi⟩, ih⟩
  | block hframe houter hstmts htail hresult hvoid hi ihstmts ihtail =>
    simp only [nodes, nodesBlock, List.forall_mem_cons, List.forall_mem_append, mem_nodesAll, mem_nodesOption]
    refine ⟨⟨_, _, .block hframe houter hstmts htail hresult hvoid hi⟩, ?_, ?_⟩
    · rintro n ⟨e, he, hn⟩
      exact ihstmts e he n hn
    · rintro n ⟨e, he, hn⟩
      exact ihtail e he n hn
  | ifElse hcond hbool hthen hother hfirst hsecond hvoid hi ihcond ihthen ihother =>
    simp only [nodes, List.forall_mem_cons, List.forall_mem_append, mem_nodesOption]
    refine ⟨⟨_, _, .ifElse hcond hbool hthen hother hfirst hsecond hvoid hi⟩, ⟨ihcond, ihthen⟩, ?_⟩
    rintro n ⟨e, he, hn⟩
    exact ihother e he n hn
  | whileLoop hcond hbool hbody hvoid hi ihcond ihbody =>
    simp only [nodes, List.forall_mem_cons, List.forall_mem_append]
    exact ⟨⟨_, _, .whileLoop hcond hbool hbody hvoid hi⟩, ihcond, ihbody⟩
  | endlessLoop hbody hvoid ht hi ih =>
    simp only [nodes, List.forall_mem_cons]
    exact ⟨⟨_, _, .endlessLoop hbody hvoid ht hi⟩, ih⟩
  | leaveLoop hi =>
    simp only [nodes, List.mem_singleton, forall_eq]
    exact ⟨none, 0, .leaveLoop hi⟩
  | nextRound hi =>
    simp only [nodes, List.mem_singleton, forall_eq]
    exact ⟨none, 0, .nextRound hi⟩
  | leaveFunction hresult hfits hvoid hi ih =>
    simp only [nodes, List.forall_mem_cons, mem_nodesOption]
    refine ⟨⟨_, _, .leaveFunction hresult hfits hvoid hi⟩, ?_⟩
    rintro n ⟨e, he, hn⟩
    exact ih e he n hn
  | function hsig hparams hbody hfits hi ih =>
    simp only [nodes, List.forall_mem_cons]
    exact ⟨⟨none, 0, .function hsig hparams hbody hfits hi⟩, ih⟩

/-- The variable of a chain is known. -/
private theorem chain_root {root : Option Variable} {bases : List Expr} (h : e.Annotated s ret fr)
    (hchain : e.Chain root bases) :
    ∃ v, root = some v := by
  induction hchain generalizing ret fr with
  | root =>
    cases h with
    | identifier => exact ⟨_, rfl⟩
  | member _ ih =>
    cases h with
    | member hbase => exact ih hbase

/-- A chain with a location: its storage is mutable, behind a reference, or that of a variable that
holds a reference. -/
private theorem chain_of_hasLocation {root : Option Variable} {bases : List Expr} (h : e.Annotated s ret fr)
    (hchain : e.Chain root bases) (hlocation : e.hasLocation = .ok true) :
    ∃ v, root = some v ∧ (v.mutable = true ∨ (∃ b ∈ bases, ∃ t, b.type? = some t ∧ s.IsReference t) ∨
      bases = [] ∧ ∃ t, (s.typeOf v).value? = some t ∧ e.type? = some t ∧ s.IsReference t) := by
  induction hchain generalizing ret fr with
  | root =>
    cases h with
    | identifier hi hv =>
      refine ⟨_, rfl, ?_⟩
      rcases Bool.or_eq_true_iff.mp (Except.ok.inj hlocation) with hmutable | hreference
      · exact .inl hmutable
      · exact .inr (.inr ⟨rfl, _, hv, hi.type, hi.isReference hreference⟩)
  | @member _ base _ _ _ _ _ hbase ih =>
    cases h with
    | member hannotated =>
      rw [Expr.hasLocation] at hlocation
      split at hlocation
      · rename_i hreference
        obtain ⟨v, hv⟩ := hannotated.chain_root hbase
        obtain ⟨t, ht⟩ := hannotated.typed
        exact ⟨v, hv, .inr (.inl ⟨base, List.mem_cons_self, t, ht.type, ht.isReference hreference⟩)⟩
      · -- the base has the location, so what is known about its storage goes over to the member
        obtain ⟨v, hv, hmutable | ⟨b, hb, hreference⟩ | ⟨-, u, -, hu, hreference⟩⟩ := ih hannotated hlocation
        · exact ⟨v, hv, .inl hmutable⟩
        · exact ⟨v, hv, .inr (.inl ⟨b, List.mem_cons_of_mem _ hb, hreference⟩)⟩
        · exact ⟨v, hv, .inr (.inl ⟨base, List.mem_cons_self, u, hu, hreference⟩)⟩

end Expr.Annotated

end

/--
The storage that a reference refers to.  In a module without problems, the operand of `&` is a part
of a mutable variable, or reached through a reference, or it is a variable that holds a reference
itself.
-/
theorem address_of_no_errors (file : SourceFile) (options : Options) (u : CompiledUnit) (m : Module) (f : FunctionDecl)
    (i : Info) (operand : Expr) (root : Option Variable) (bases : List Expr) (hcompile : file.compile options = .ok u)
    (herrors : u.errors = []) (hm : u.module = some m) (hf : .function f ∈ m.decls)
    (hn : .unary i .address operand ∈ Expr.nodesBlock f.body) (hchain : operand.Chain root bases) :
    ∃ v, root = some v ∧ (v.mutable = true ∨ (∃ b ∈ bases, ∃ t, b.type? = some t ∧ m.store.IsReference t) ∨
      bases = [] ∧ ∃ t, (m.store.typeOf v).value? = some t ∧ operand.type? = some t ∧ m.store.IsReference t) := by
  rcases file.compile_cases options with ⟨d, hrefused⟩ | ⟨decls, m', errors, -, -, hcompile', -, hannotated⟩
  · rw [hcompile] at hrefused
    cases hrefused
    cases hm
  · rw [hcompile] at hcompile'
    cases hcompile'
    cases hm
    obtain ⟨_, _, _, _, -, -, hbody, -, -⟩ := hannotated herrors f hf
    obtain ⟨ret, fr, hunary⟩ := hbody.of_mem_nodes _ hn
    cases hunary with
    | negation hop => exact absurd rfl hop
    | address hoperand hlocation => exact hoperand.chain_of_hasLocation hchain hlocation

/-- Whether a node is a reference to an immutable variable. -/
def Expr.refersToImmutable : Expr → Bool
  | .unary _ .address (.identifier _ _ (some v)) => !v.mutable
  | _ => false

private theorem Expr.refersToImmutable_eq_true {n : Expr} (h : n.refersToImmutable = true) : ∃ i operand v,
    n = .unary i .address operand ∧ operand.Chain (some v) [] ∧ v.mutable = false := by
  unfold refersToImmutable at h
  split at h
  · rename_i v
    exact ⟨_, _, v, rfl, .root, by simpa using h⟩
  · cases h

/-- Whether a function of a compiled file has a node with a property. -/
def CompiledUnit.hasNode (u : CompiledUnit) (p : Expr → Bool) : Bool :=
  u.module.any fun m => m.decls.any fun
    | .struct _ => false
    | .function f => (Expr.nodesBlock f.body).any p

theorem CompiledUnit.hasNode_eq_true {u : CompiledUnit} {p : Expr → Bool} (h : u.hasNode p = true) : ∃ m f n,
    u.module = some m ∧ .function f ∈ m.decls ∧ n ∈ Expr.nodesBlock f.body ∧ p n = true := by
  unfold hasNode at h
  cases hm : u.module with
  | none =>
    rw [hm] at h
    cases h
  | some m =>
    rw [hm, Option.any_some] at h
    obtain ⟨d, hd, hany⟩ := List.any_eq_true.mp h
    cases d with
    | struct d => cases hany
    | function f =>
      obtain ⟨n, hn, hp⟩ := List.any_eq_true.mp hany
      exact ⟨m, f, n, rfl, hd, hn, hp⟩

/-- A function that makes its immutable parameter refer to something else, through a reference to the parameter. -/
def redirectedParameter : SourceFile := ⟨"redirected", "fn f(p:&i32,o:&i32){let q=&p;q=o;}".toList⟩

private theorem redirectedParameter_compile : ∃ u m f n, redirectedParameter.compile {} = .ok u ∧ u.errors = [] ∧
    u.module = some m ∧ .function f ∈ m.decls ∧ n ∈ Expr.nodesBlock f.body ∧ n.refersToImmutable = true := by
  have hrun : (redirectedParameter.compile {}).toOption.any
      (fun u => u.errors.isEmpty && u.hasNode Expr.refersToImmutable) = true := by
    decide +kernel
  cases hcompile : redirectedParameter.compile {} with
  | error f =>
    rw [hcompile] at hrun
    cases hrun
  | ok u =>
    rw [hcompile] at hrun
    obtain ⟨herrors, hnode⟩ := Bool.and_eq_true_iff.mp hrun
    obtain ⟨m, f, n, hm, hf, hn, hp⟩ := CompiledUnit.hasNode_eq_true hnode
    exact ⟨u, m, f, n, rfl, List.isEmpty_iff.mp herrors, hm, hf, hn, hp⟩

/-- An immutable variable that holds a reference can be referred to, without any access through a reference. -/
theorem immutable_addressed : ∃ u m f i operand v bases, redirectedParameter.compile {} = .ok u ∧ u.errors = [] ∧
    u.module = some m ∧ .function f ∈ m.decls ∧ .unary i .address operand ∈ Expr.nodesBlock f.body ∧
    operand.Chain (some v) bases ∧
    ¬(v.mutable = true ∨ ∃ b ∈ bases, ∃ t, b.type? = some t ∧ m.store.IsReference t) := by
  obtain ⟨u, m, f, n, hcompile, herrors, hm, hf, hn, hp⟩ := redirectedParameter_compile
  obtain ⟨i, operand, v, rfl, hchain, hmutable⟩ := Expr.refersToImmutable_eq_true hp
  exact ⟨u, m, f, i, operand, v, [], hcompile, herrors, hm, hf, hn, hchain, by simp [hmutable]⟩

/-- The parameter is referred to because it holds a reference. -/
theorem address_redirectedParameter : ∃ u m f i operand v, redirectedParameter.compile {} = .ok u ∧ u.errors = [] ∧
    u.module = some m ∧ .function f ∈ m.decls ∧ .unary i .address operand ∈ Expr.nodesBlock f.body ∧
    operand.Chain (some v) [] ∧ ∃ t, (m.store.typeOf v).value? = some t ∧ m.store.IsReference t := by
  obtain ⟨u, m, f, n, hcompile, herrors, hm, hf, hn, hp⟩ := redirectedParameter_compile
  obtain ⟨i, operand, v, rfl, hchain, hmutable⟩ := Expr.refersToImmutable_eq_true hp
  refine ⟨u, m, f, i, operand, v, hcompile, herrors, hm, hf, hn, hchain, ?_⟩
  obtain ⟨w, hw, haddress⟩ := address_of_no_errors _ _ u m f i operand _ _ hcompile herrors hm hf hn hchain
  cases hw
  rcases haddress with hmut | ⟨b, hb, -⟩ | ⟨-, t, ht, -, hreference⟩
  · rw [hmutable] at hmut
    cases hmut
  · cases hb
  · exact ⟨t, ht, hreference⟩

end RainCheck

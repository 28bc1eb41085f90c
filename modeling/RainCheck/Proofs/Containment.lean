import RainCheck.Proofs.Compilation

/-!
# Structs that contain themselves

A recursive definition is a problem of the graph of structs: without a cycle in it none is reported,
neither for a struct nor for a function whose types or body use it.
* Only the name directly behind `&` is left out of the graph (`kind_ne_recursive_of_acyclic`).
* What stands deeper behind `&`, such as a parameter of a function type, still counts.
* A problem names the structs of a cycle of this graph, and where it is closed (`recursive_names_cycle`).
-/

namespace RainCheck

open Relation (TransGen)

namespace StructDecl

/-- A relation into some structs, along which a number gets smaller between them, leads no struct back to itself. -/
private theorem not_transGen_self {r : StructDecl → StructDecl → Prop} {p : StructDecl → Prop} (rank : StructDecl → Nat)
    (hinto : ∀ A B, r A B → p B) (hrank : ∀ A B, p A → r A B → rank B < rank A) (A : StructDecl) : ¬TransGen r A A := by
  have hdown : ∀ {A B}, TransGen r A B → p A → rank B < rank A := by
    intro A B h hA
    induction h with
    | single hAB => exact hrank _ _ hA hAB
    | tail hAB hBC ih =>
      obtain ⟨_, -, hstep⟩ := TransGen.tail'_iff.mp hAB
      exact Nat.lt_trans (hrank _ _ (hinto _ _ hstep) hBC) ih
  intro hself
  obtain ⟨_, -, hstep⟩ := TransGen.tail'_iff.mp hself
  exact Nat.lt_irrefl _ (hdown hself (hinto _ _ hstep))

end StructDecl

variable {decls : List Decl}

/-- A name that means a struct is the name of the struct. -/
theorem mem_of_moduleScope {name : String} {d : StructDecl} (h : moduleScope decls name = some (some d)) :
    .struct d ∈ decls ∧ d.name = name := by
  unfold moduleScope at h
  split at h
  · rename_i e hfind
    cases h
    have hname : (Decl.struct d).name = name := by simpa using List.find?_some hfind
    exact ⟨List.mem_of_find?_eq_some hfind, hname⟩
  · cases hbuiltin : Frames.builtinTypes.lookup name with
    | none => rw [hbuiltin] at h; cases h
    | some t => rw [hbuiltin] at h; cases h

/-- Structs that contain, by value, only such of a lower rank are on no cycle. -/
private theorem not_onCycle_of_rank (rank : String → Nat)
    (h : ∀ d, .struct d ∈ decls → ∀ name, d.Mentions false name → rank name < rank d.name) (A : StructDecl) :
    ¬A.OnCycle (moduleScope decls) := by
  refine StructDecl.not_transGen_self (p := fun d => .struct d ∈ decls) (fun d => rank d.name) ?_ ?_ A
  · rintro A B ⟨name, -, hscope⟩
    exact (mem_of_moduleScope hscope).1
  · rintro A B hA ⟨name, hmentions, hscope⟩
    exact (mem_of_moduleScope hscope).2 ▸ h A hA name hmentions

/-! ### Recursive definitions -/

/-- If no struct contains itself by value, no recursive definition is reported. -/
theorem kind_ne_recursive_of_acyclic (file : SourceFile) (options : Options) (decls : List Decl)
    (hdecls : file.declarations = .ok decls) (hacyclic : ∀ A : StructDecl, ¬A.OnCycle (moduleScope decls)) :
    ∃ u, file.compile options = .ok u ∧ ∀ d ∈ u.errors, d.kind ≠ .recursiveTypeDefinition := by
  obtain ⟨m, errors, hcompile, hexplained, -⟩ := compile_ends options file (file.parsed_of_declarations hdecls)
  refine ⟨_, file.compile_of_module hdecls hcompile, fun d hd hkind => ?_⟩
  rcases hexplained d hd with hallows | ⟨u, -, rfl, -⟩
  · obtain ⟨A, hA⟩ := hallows.cycle hkind trivial
    exact hacyclic A hA
  · cases hkind

/-- The names in each struct, by whether they stand directly behind `&`. -/
def mentionsOf (decls : List Decl) : List (String × List (Bool × String)) :=
  decls.filterMap fun
    | .struct d => some (d.name, d.fields.flatMap fun f => f.type.occurrences false)
    | .function _ => none

private theorem mem_mentionsOf {d : StructDecl} (hd : .struct d ∈ decls) {behind : Bool} {name : String}
    (h : d.Mentions behind name) : ∃ names, (d.name, names) ∈ mentionsOf decls ∧ (behind, name) ∈ names := by
  obtain ⟨field, hfield, hname⟩ := h
  exact ⟨_, List.mem_filterMap.mpr ⟨_, hd, rfl⟩, List.mem_flatMap.mpr ⟨field, hfield, hname⟩⟩

/-- Trees and the lists of trees that they hold, which lead back to trees through references. -/
theorem kind_ne_recursive_forest : ∃ decls u,
    SourceFile.declarations ⟨"forest", "struct T{x:i32,f:F} struct F{t:&T,f:&F,g:fn(&T)}".toList⟩ = .ok decls ∧
      mentionsOf decls = [("T", [(false, "i32"), (false, "F")]), ("F", [(true, "T"), (true, "F"), (true, "T")])] ∧
      (∀ A : StructDecl, ¬A.OnCycle (moduleScope decls)) ∧
      SourceFile.compile {} ⟨"forest", "struct T{x:i32,f:F} struct F{t:&T,f:&F,g:fn(&T)}".toList⟩ = .ok u ∧
      ∀ d ∈ u.errors, d.kind ≠ .recursiveTypeDefinition := by
  have hrun : (SourceFile.declarations
      ⟨"forest", "struct T{x:i32,f:F} struct F{t:&T,f:&F,g:fn(&T)}".toList⟩).toOption.map mentionsOf =
        some [("T", [(false, "i32"), (false, "F")]), ("F", [(true, "T"), (true, "F"), (true, "T")])] := by
    decide +kernel
  obtain ⟨decls, hdecls, hmentions⟩ := Option.map_eq_some_iff.mp hrun
  have hacyclic : ∀ A : StructDecl, ¬A.OnCycle (moduleScope decls) := by
    refine not_onCycle_of_rank (["i32", "F", "T"].idxOf ·) fun d hd name hname => ?_
    obtain ⟨names, hnames, hmem⟩ := mem_mentionsOf hd hname
    simp only [hmentions, List.mem_cons, Prod.mk.injEq, List.not_mem_nil, or_false] at hnames
    rcases hnames with ⟨hd, rfl⟩ | ⟨hd, rfl⟩
    · simp only [List.mem_cons, Prod.mk.injEq, true_and, List.not_mem_nil, or_false] at hmem
      rcases hmem with rfl | rfl <;> rw [hd] <;> decide
    · simp at hmem
  obtain ⟨u, hcompile, herrors⟩ := kind_ne_recursive_of_acyclic _ {} decls (eq_ok_of_toOption hdecls) hacyclic
  exact ⟨decls, u, eq_ok_of_toOption hdecls, hmentions, hacyclic, hcompile, herrors⟩

/-! ### The cycle that is named -/

/-- A struct on a cycle is what its name means. -/
private theorem scope_of_isCycle {first : StructDecl} {rest : List StructDecl} {span : Span}
    (h : StructDecl.IsCycle (moduleScope decls) first rest span) :
    ∀ A ∈ first :: rest, moduleScope decls A.name = some (some A) := by
  have hself : ∀ {name A}, moduleScope decls name = some (some A) → moduleScope decls A.name = some (some A) :=
    fun hscope => by rw [(mem_of_moduleScope hscope).2, hscope]
  -- the first struct is named by the last one, every other one by the struct in front of it
  have hfirst : moduleScope decls first.name = some (some first) := by
    obtain ⟨name, -, hscope⟩ := h.back _ (List.getLast_mem_getLast? (List.cons_ne_nil first rest))
    exact hself hscope
  have hchain := h.chain
  clear h
  induction rest generalizing first with
  | nil => exact fun A hA => List.mem_singleton.mp hA ▸ hfirst
  | cons next rest ih =>
    obtain ⟨⟨name, -, hscope⟩, hchain⟩ := List.isChain_cons_cons.mp hchain
    intro A hA
    rcases List.mem_cons.mp hA with rfl | hA
    · exact hfirst
    · exact ih (hself hscope) hchain A hA

private theorem mentions_of_dependsOn {A B : StructDecl} (h : A.DependsOn (moduleScope decls) B) :
    A.Mentions false B.name := by
  obtain ⟨name, hmentions, hscope⟩ := h
  exact (mem_of_moduleScope hscope).2 ▸ hmentions

/--
A problem about a struct that contains itself names a cycle: structs of the module with different names, each of which
has the name of the next one in a field, not directly behind `&`.  The problem is found where the name of the first one
stands in a field of the last one.
-/
theorem recursive_names_cycle (file : SourceFile) (options : Options) (decls : List Decl)
    (hdecls : file.declarations = .ok decls) :
    ∃ u, file.compile options = .ok u ∧ ∀ d ∈ u.errors, d.kind = .recursiveTypeDefinition →
      ∃ first rest last, d.cause = .recursiveType ((first :: rest).map (·.name) ++ [first.name]) ∧
        ((first :: rest).map (·.name)).Nodup ∧ (∀ A ∈ first :: rest, .struct A ∈ decls) ∧
        (first :: rest).IsChain (fun A B => A.Mentions false B.name) ∧
        (first :: rest).getLast? = some last ∧ last.Uses ⟨false, first.name, d.span⟩ := by
  obtain ⟨m, errors, hcompile, hexplained, -⟩ := compile_ends options file (file.parsed_of_declarations hdecls)
  refine ⟨_, file.compile_of_module hdecls hcompile, fun d hd hkind => ?_⟩
  rcases hexplained d hd with hallows | ⟨u, -, rfl, -⟩
  · obtain ⟨first, rest, hcycle, hcause⟩ := hallows.names hkind trivial
    have hscope := scope_of_isCycle hcycle
    have hlast := List.getLast?_eq_getLast_of_ne_nil (List.cons_ne_nil first rest)
    refine ⟨first, rest, _, hcause, hcycle.nodup.map_on fun A hA B hB hname => ?_,
      fun A hA => (mem_of_moduleScope (hscope A hA)).1, hcycle.chain.imp fun _ _ => mentions_of_dependsOn, hlast, ?_⟩
    · have hsame := hscope A hA
      rw [hname, hscope B hB] at hsame
      cases hsame
      rfl
    · obtain ⟨name, huses, hfirst⟩ := hcycle.back _ hlast
      rw [(mem_of_moduleScope hfirst).2]
      exact huses
  · cases hkind

/-- Three structs that lead back to the first one, through the parameter of a function type. -/
theorem recursive_names_cycle_three : ∃ decls u d,
    SourceFile.declarations ⟨"ring", "struct A{b:B} struct B{c:fn(&A,C)} struct C{a:A}".toList⟩ = .ok decls ∧
      SourceFile.compile {} ⟨"ring", "struct A{b:B} struct B{c:fn(&A,C)} struct C{a:A}".toList⟩ = .ok u ∧
      u.errors = [d] ∧ d.cause = .recursiveType ["A", "B", "C", "A"] ∧ d.span.start = 46 ∧
      ∃ first rest last, d.cause = .recursiveType ((first :: rest).map (·.name) ++ [first.name]) ∧
        ((first :: rest).map (·.name)).Nodup ∧ (∀ A ∈ first :: rest, .struct A ∈ decls) ∧
        (first :: rest).IsChain (fun A B => A.Mentions false B.name) ∧
        (first :: rest).getLast? = some last ∧ last.Uses ⟨false, first.name, d.span⟩ := by
  have hread : (SourceFile.declarations
      ⟨"ring", "struct A{b:B} struct B{c:fn(&A,C)} struct C{a:A}".toList⟩).toOption.isSome = true := by
    decide +kernel
  have hrun : (SourceFile.compile {}
      ⟨"ring", "struct A{b:B} struct B{c:fn(&A,C)} struct C{a:A}".toList⟩).toOption.map
        (fun u => u.errors.map fun d => (d.cause, d.span.start)) =
        some [(.recursiveType ["A", "B", "C", "A"], 46)] := by
    decide +kernel
  obtain ⟨decls, hdecls⟩ := Option.isSome_iff_exists.mp hread
  obtain ⟨u, hu, herrors⟩ := Option.map_eq_some_iff.mp hrun
  obtain ⟨u', hu', hall⟩ := recursive_names_cycle _ {} decls (eq_ok_of_toOption hdecls)
  cases (eq_ok_of_toOption hu).symm.trans hu'
  obtain ⟨d, hd, hcause⟩ := List.map_eq_singleton_iff.mp herrors
  obtain ⟨hcause, hstart⟩ := Prod.mk.inj hcause
  exact ⟨decls, u, d, eq_ok_of_toOption hdecls, hu', hd, hcause, hstart,
    hall d (by simp [hd]) (by rw [Diagnostic.kind, hcause]; rfl)⟩

/-! ### Function types behind references -/

mutual

/-- The names in a type that stand behind no `&`, however deep. -/
def TypeExpr.outside : TypeExpr → List String
  | .named _ name => [name]
  | .reference _ _ => []
  | .function _ params returns => TypeExpr.outsideAll params ++ TypeExpr.optionOutside returns

/-- The names in types that stand behind no `&`. -/
def TypeExpr.outsideAll : List TypeExpr → List String
  | [] => []
  | t :: rest => t.outside ++ TypeExpr.outsideAll rest

/-- The names in a type that may be left out that stand behind no `&`. -/
def TypeExpr.optionOutside : Option TypeExpr → List String
  | some t => t.outside
  | none => []

end

/-- A struct has a field that names another struct behind no `&`, however deep. -/
def StructDecl.HoldsOutside (scope : TypeScope) (A B : StructDecl) : Prop :=
  ∃ field ∈ A.fields, ∃ name ∈ field.type.outside, scope name = some (some B)

/-- The names in each struct that stand behind no `&`. -/
def outsideOf (decls : List Decl) : List (String × List String) :=
  decls.filterMap fun
    | .struct d => some (d.name, d.fields.flatMap fun f => f.type.outside)
    | .function _ => none

/-- A struct that is named only behind `&`, as the parameter of a function type, contains itself all the same. -/
theorem recursive_behind_reference : ∃ decls u,
    SourceFile.declarations ⟨"callback", "struct A { f: &fn(A) }".toList⟩ = .ok decls ∧
      (decls.map Decl.name).Nodup ∧ (∀ A, ¬TransGen (StructDecl.HoldsOutside (moduleScope decls)) A A) ∧
      SourceFile.compile {} ⟨"callback", "struct A { f: &fn(A) }".toList⟩ = .ok u ∧
      u.errors.map (·.kind) = [.recursiveTypeDefinition] := by
  have hread : (SourceFile.declarations ⟨"callback", "struct A { f: &fn(A) }".toList⟩).toOption.map
      (fun decls => (decls.map Decl.name, outsideOf decls)) = some (["A"], [("A", [])]) := by
    decide +kernel
  have hrun : (SourceFile.compile {} ⟨"callback", "struct A { f: &fn(A) }".toList⟩).toOption.map
      (fun u => u.errors.map (·.kind)) = some [.recursiveTypeDefinition] := by
    decide +kernel
  obtain ⟨decls, hdecls, hnames⟩ := Option.map_eq_some_iff.mp hread
  obtain ⟨u, hu, hkinds⟩ := Option.map_eq_some_iff.mp hrun
  obtain ⟨hnames, houtside⟩ := Prod.mk.inj hnames
  refine ⟨decls, u, eq_ok_of_toOption hdecls, by rw [hnames]; decide, ?_, eq_ok_of_toOption hu, hkinds⟩
  refine StructDecl.not_transGen_self (p := fun d => .struct d ∈ decls) (fun _ => 0) ?_ ?_
  · rintro A B ⟨_, -, _, -, hscope⟩
    exact (mem_of_moduleScope hscope).1
  · -- the only struct names nothing outside of references
    rintro A B hA ⟨field, hfield, name, hname, -⟩
    have hmem : (A.name, A.fields.flatMap fun f => f.type.outside) ∈ outsideOf decls :=
      List.mem_filterMap.mpr ⟨_, hA, rfl⟩
    simp only [houtside, List.mem_singleton, Prod.mk.injEq] at hmem
    have hnil : name ∈ A.fields.flatMap fun f => f.type.outside := List.mem_flatMap.mpr ⟨field, hfield, hname⟩
    rw [hmem.2] at hnil
    cases hnil

end RainCheck

import RainCheck.Proofs.Compilation
import RainCheck.Proofs.Covering

/-!
# Bound identifiers

Names are bound as the scopes of the text say, in every part that a compilation comes to (`Visit.Reached`).
* A part that is reached stands in a frame that shows its scope.
* A problem that ends the walk through a part is reported.

So an identifier is bound to the variable that its scope gives, and it is reported as unknown exactly when its scope
gives none.
-/

namespace RainCheck

open Relation (ReflTransGen)

/--
A part that a compilation comes to.  The module is prepared, the bodies of the functions in front are checked, and the
walk through the body of a function leads to the part.
-/
inductive Visit.Reached (options : Options) (decls : List Decl) (v : Visit) : Prop where
  | inside {before behind done : List Item} {f : FunctionDecl} {p q : Progress} {start : Visit}
      (hprepared : Phase.runAll options Phase.preparation (decls.map ({ decl := · })) { store := {} } =
        .ok (before ++ ⟨.function f, false⟩ :: behind, p))
      (hbefore : Phase.bodies.run options before p = .ok (done, q)) (hrunning : q.halted = false)
      (hbegins : start.Begins options FrameId.module f.header f.body { store := q.store })
      (hsteps : ReflTransGen Visit.Step start v) : Reached options decls v

section

variable {options : Options} {decls : List Decl} {before behind done : List Item} {f : FunctionDecl} {p q : Progress}
  {v : Visit} {d : Diagnostic}

/-- What is known when a compilation comes to the body of a declaration. -/
theorem underway_before {rest : List Item} (hparsed : Parsed decls)
    (hprepared : Phase.runAll options Phase.preparation (decls.map ({ decl := · })) { store := {} } =
      .ok (before ++ rest, p))
    (hbefore : Phase.bodies.run options before p = .ok (done, q)) : Underway options decls rest q := by
  obtain ⟨items, p', hprepared', -, h⟩ := preparation_ends options hparsed
  rw [hprepared] at hprepared'
  cases hprepared'
  obtain ⟨done', q', hbefore', h', -⟩ := Phase.run_ends (fun done tail => Checked options decls done (tail ++ rest))
    (fun _ _ _ _ h => (Checked.step hparsed h).imp fun _ => .imp fun _ hstep => ⟨hstep.1, hstep.2.1⟩) ⟨h, by simp⟩
  rw [hbefore] at hbefore'
  cases hbefore'
  exact h'

/-- A part that is reached stands in a frame that shows its scope. -/
theorem Visit.Reached.sound (hparsed : Parsed decls) (h : v.Reached options decls) :
    ∃ σ, v.Sound (moduleListing decls) (moduleFunctions decls) (moduleUses decls) σ := by
  cases h with
  | @inside _ _ _ f _ _ _ hprepared hbefore hrunning hbegins hsteps =>
    have hunderway := underway_before hparsed hprepared hbefore
    have hrest := hunderway.resting hrunning
    have howns : (Decl.function f).Owns decls := hunderway.owns hrunning _ List.mem_cons_self rfl
    have hmem : .function f ∈ decls := List.mem_of_find?_eq_some howns
    have hused : ∀ u ∈ f.uses (moduleFunctions decls), u ∈ moduleUses decls := fun u hu =>
      List.mem_flatMap.mpr ⟨_, hmem, hu⟩
    refine Visit.Sound.reaches (hbegins.sound (hrest.prepared hparsed hmem List.mem_cons_self) hrest.module
      (hparsed.lists_header hmem) (hrest.functions f howns) (hparsed.params f hmem) (hparsed.body f hmem) hused) hsteps

/-- The problems of a compilation are those that are known when all bodies are checked. -/
private theorem SourceFile.errors_of_prepared (file : SourceFile) {u : CompiledUnit} {items : List Item}
    (hdecls : file.declarations = .ok decls) (hcompile : file.compile options = .ok u)
    (hprepared : Phase.runAll options Phase.preparation (decls.map ({ decl := · })) { store := {} } = .ok (items, p)) :
    ∃ items' q, Phase.bodies.run options items p = .ok (items', q) ∧ u.errors = q.errors ∧
      ∀ d ∈ u.errors, Explains (moduleListing decls) (moduleUses decls) d := by
  have hparsed := file.parsed_of_declarations hdecls
  obtain ⟨items', p', hprepared', -, h⟩ := preparation_ends options hparsed
  rw [hprepared] at hprepared'
  cases hprepared'
  obtain ⟨items', q, hbodies, ⟨hchecked, -⟩, -⟩ := bodies_end hparsed h
  simp only [SourceFile.compile, hdecls, compile_of_prepared hprepared hbodies, ok_bind] at hcompile
  cases hcompile
  exact ⟨items', q, hbodies, rfl, hchecked.accounted.explained⟩

/-- A function whose walk ends with a problem is refused. -/
private theorem bodies_step_refused {st : CheckState} {r : Info × Header × Block Expr} (hrunning : q.halted = false)
    (hrun : (Check.functionWith options FrameId.module f.info f.header f.body
      fun c frame => Check.block c frame f.body).run { store := q.store } = (r, st))
    (hstop : st.stop = some (.refused d)) :
    Phase.bodies.step options ⟨.function f, false⟩ q =
      .ok (⟨.function ⟨r.1, r.2.1, r.2.2⟩, true⟩, q.refuse options d st.store) := by
  unfold Phase.step
  simp only [hrunning, Bool.or_self, Bool.false_eq_true, if_false, Phase.apply, Phase.checkBody,
    check_of_run hrun, hstop]

/-- A problem that ends the walk through a part is reported. -/
theorem Visit.Reached.reported {file : SourceFile} {u : CompiledUnit} (hdecls : file.declarations = .ok decls)
    (hcompile : file.compile options = .ok u) (h : v.Reached options decls) (hstop : v.after.stop = some (.refused d)) :
    d ∈ u.errors := by
  have hparsed := file.parsed_of_declarations hdecls
  cases h with
  | @inside before behind done f p q start hprepared hbefore hrunning hbegins hsteps =>
    have hunderway := underway_before hparsed hprepared hbefore
    have hmem : .function f ∈ decls := List.mem_of_find?_eq_some (hunderway.owns hrunning _ List.mem_cons_self rfl)
    have huntyped : f.info.type = none := by rw [hparsed.untyped f hmem]
    have hend := (hbegins.contained huntyped _ (Visit.ended_of_reaches hsteps hstop)).1
    -- the function is refused with the problem, which stays reported until the end
    obtain ⟨items, r, hbodies, herrors, -⟩ := file.errors_of_prepared hdecls hcompile hprepared
    obtain ⟨done', last, q', hbefore', hlast⟩ := Phase.run_append_inv hbodies
    rw [hbefore] at hbefore'
    cases hbefore'
    obtain ⟨item, rest, q', hstep, hrest, -⟩ := Phase.run_cons_inv hlast
    rw [bodies_step_refused hrunning rfl hend] at hstep
    cases hstep
    rw [herrors]
    exact Phase.run_errors hrest (Progress.mem_refuse.mpr (.inr rfl))

/-- Without problems the walk through a function of the module begins and goes on behind it. -/
private theorem walked_of_no_errors {file : SourceFile} {u : CompiledUnit} (hdecls : file.declarations = .ok decls)
    (hcompile : file.compile options = .ok u) (herrors : u.errors = []) (hf : .function f ∈ decls) :
    ∃ before behind done p q,
      Phase.runAll options Phase.preparation (decls.map ({ decl := · })) { store := {} } =
        .ok (before ++ ⟨.function f, false⟩ :: behind, p) ∧
      Phase.bodies.run options before p = .ok (done, q) ∧ q.halted = false ∧
      ((Check.functionWith options FrameId.module f.info f.header f.body
        fun c frame => Check.block c frame f.body).run { store := q.store }).2.stop = none := by
  have hparsed := file.parsed_of_declarations hdecls
  obtain ⟨items, p, hprepared, hitems, hunderway⟩ := preparation_ends options hparsed
  obtain ⟨items', r, hbodies, heq, -⟩ := file.errors_of_prepared hdecls hcompile hprepared
  rw [heq] at herrors
  -- nothing has failed before bodies are checked
  have hp : p.errors = [] := List.eq_nil_of_subset_nil (herrors ▸ Phase.run_errors hbodies)
  obtain ⟨⟨_, failed⟩, hi, rfl⟩ := List.mem_map.mp (hitems ▸ hf)
  cases failed with
  | true => exact absurd hp (hunderway.accounted.failed _ hi rfl)
  | false =>
    obtain ⟨before, behind, rfl⟩ := List.append_of_mem hi
    obtain ⟨done, last, q, hbefore, hlast⟩ := Phase.run_append_inv hbodies
    have hunderway' := underway_before hparsed hprepared hbefore
    have hq : q.errors = [] := List.eq_nil_of_subset_nil (herrors ▸ Phase.run_errors hlast)
    have hrunning : q.halted = false := Bool.eq_false_iff.mpr fun hhalted => (hunderway'.accounted.halted hhalted).1 hq
    refine ⟨before, behind, done, p, q, hprepared, hbefore, hrunning, Option.eq_none_iff_forall_ne_some.mpr ?_⟩
    rintro (why | fault) hstop
    · -- the function would be refused
      obtain ⟨item, rest, q', hstep, hrest, -⟩ := Phase.run_cons_inv hlast
      rw [bodies_step_refused hrunning rfl hstop] at hstep
      cases hstep
      have hwhy : why ∈ r.errors := Phase.run_errors hrest (Progress.mem_refuse.mpr (.inr rfl))
      rw [herrors] at hwhy
      cases hwhy
    · have howns := hunderway'.owns hrunning _ List.mem_cons_self rfl
      have hwalks := (hunderway'.resting hrunning).walks options hparsed howns List.mem_cons_self
        (show FrameId.exported < 3 by decide)
      exact hwalks.1.faultless fault hstop

/-- Without problems all identifiers of a text are reached. -/
private theorem reached_of_no_errors {file : SourceFile} {u : CompiledUnit} (hdecls : file.declarations = .ok decls)
    (hcompile : file.compile options = .ok u) (herrors : u.errors = []) {use : Use} (huse : use ∈ moduleUses decls) :
    ∃ c fr st, Visit.Reached options decls ⟨c, fr, .expr (.identifier { span := use.span } use.name none), st⟩ ∧
      st.stop = none := by
  have hparsed := file.parsed_of_declarations hdecls
  obtain ⟨d, hd, huse⟩ := List.mem_flatMap.mp huse
  cases d with
  | struct d => cases huse
  | function f =>
    obtain ⟨before, behind, done, p, q, hprepared, hbefore, hrunning, hstop⟩ :=
      walked_of_no_errors hdecls hcompile herrors hd
    have huntyped : f.info.type = none := by rw [hparsed.untyped f hd]
    obtain ⟨c, fr, st, hbegins, hreturns, hafter⟩ := exists_begins huntyped hstop
    obtain ⟨c', fr', st', hsteps, hopen⟩ := covers_block f.body (hparsed.body f hd) hreturns hafter use huse
    exact ⟨c', fr', st', .inside hprepared hbefore hrunning hbegins hsteps, hopen⟩

/-- An identifier is mentioned in its module. -/
private theorem mem_mentions_of_uses {use : Use} (h : use ∈ moduleUses decls) :
    .value use.span ∈ decls.flatMap Decl.mentions := by
  obtain ⟨d, hd, huse⟩ := List.mem_flatMap.mp h
  exact Decl.mentions_sub hd _ ((d.uses_sublist (moduleFunctions decls)).subset (List.mem_map_of_mem huse))

/-- Identifiers at the same place are the same. -/
private theorem Parsed.use_eq (hparsed : Parsed decls) {use use' : Use} (h : use ∈ moduleUses decls)
    (h' : use' ∈ moduleUses decls)
    (hspan : use.span = use'.span) : use = use' :=
  List.inj_on_of_nodup_map (hparsed.nodup_uses (moduleFunctions decls)) h h' (congrArg Span.start hspan)

/-- An identifier that is reported as unknown means nothing. -/
private theorem meaning_eq_none_of_reported (hparsed : Parsed decls) {use : Use}
    (huse : use ∈ moduleUses decls) {name : String}
    (h : Explains (moduleListing decls) (moduleUses decls) ⟨use.span, .unknownSymbol name⟩) : use.meaning = none := by
  rcases h with hallows | ⟨use', huse', heq, hmeaning⟩
  · -- the names of types and builtins stand elsewhere
    rcases hallows.blames name rfl with hother | hother
    · cases hparsed.mention_eq (mem_mentions_of_uses huse) hother rfl
    · cases hparsed.mention_eq (mem_mentions_of_uses huse) hother rfl
  · rw [hparsed.use_eq huse huse' (congrArg Diagnostic.span heq), hmeaning]

/--
Lexical scoping.  An identifier that a compilation comes to is one of the text; it is bound to the variable that its
scope gives, and reported as unknown exactly when its scope gives none.
-/
theorem identifier_follows_scope (file : SourceFile) (options : Options) (decls : List Decl) (u : CompiledUnit)
    (c : Context) (fr : FrameId) (info : Info) (name : String) (binding : Option Variable) (st : CheckState)
    (hdecls : file.declarations = .ok decls) (hcompile : file.compile options = .ok u)
    (hreached : Visit.Reached options decls ⟨c, fr, .expr (.identifier info name binding), st⟩)
    (hopen : st.stop = none) :
    ∃ use ∈ moduleUses decls, (∀ use' ∈ moduleUses decls, use'.span = info.span → use' = use) ∧
      use.span = info.span ∧ use.name = name ∧
      (∃ e st', (Check.expr c fr (.identifier info name binding)).run st = (e, st') ∧
        Bound (moduleListing decls) info name use.meaning e st'.stop) ∧
      (⟨info.span, .unknownSymbol name⟩ ∈ u.errors ↔ use.meaning = none) := by
  have hparsed := file.parsed_of_declarations hdecls
  obtain ⟨σ, hsound⟩ := hreached.sound hparsed
  obtain ⟨e, st', hrun⟩ : ∃ e st', (Check.expr c fr (.identifier info name binding)).run st = (e, st') := ⟨_, _, rfl⟩
  obtain ⟨huse, hbound⟩ := hsound.identifier hopen hrun
  refine ⟨_, huse, fun use' huse' hspan => hparsed.use_eq huse' huse hspan, rfl, rfl, ⟨e, st', hrun, hbound⟩, ?_, ?_⟩
  · intro herror
    obtain ⟨items, p, hprepared, -⟩ := preparation_ends options hparsed
    obtain ⟨-, -, -, -, hexplained⟩ := file.errors_of_prepared hdecls hcompile hprepared
    exact meaning_eq_none_of_reported hparsed huse (hexplained _ herror)
  · intro hmeaning
    refine hreached.reported hdecls hcompile ?_
    have hafter : (Visit.after ⟨c, fr, .expr (.identifier info name binding), st⟩).stop = st'.stop := by
      unfold Visit.after
      dsimp only
      rw [hrun]
    rw [hafter]
    generalize hstop : st'.stop = stop at hbound
    -- the scope gives nothing, so what was found or refused would come from nowhere
    cases hbound with
    | unknown => rfl
    | found hfound =>
      rw [show Scope.find? σ name = none from hmeaning] at hfound
      cases hfound
    | refused hfound =>
      rw [show Scope.find? σ name = none from hmeaning] at hfound
      cases hfound

/-- A function whose parameter is hidden by a binding of the same name. -/
def hiddenParameter : SourceFile := ⟨"hidden", "fn f(a:i32)->i32{let a=a;a}".toList⟩

/-- The last identifier is bound to the binding in front of it, not to the parameter. -/
theorem identifier_follows_scope_hiddenParameter : ∃ decls u c fr st info name v i st',
    hiddenParameter.declarations = .ok decls ∧ hiddenParameter.compile {} = .ok u ∧
      Visit.Reached {} decls ⟨c, fr, .expr (.identifier info name none), st⟩ ∧ st.stop = none ∧ info.span.start = 25 ∧
      (Check.expr c fr (.identifier info name none)).run st = (.identifier i name (some v), st') ∧
      v.span.start = 21 := by
  have hmeaning : hiddenParameter.declarations.toOption.map (fun decls => (moduleUses decls).map fun use =>
      (use.span.start, use.meaning.map fun v => (v.span.start, v.kind.isFunction))) =
        some [(23, some (5, false)), (25, some (21, false))] := by
    decide +kernel
  have hclean : (hiddenParameter.compile {}).toOption.map (·.errors) = some [] := by
    decide +kernel
  cases hdecls : hiddenParameter.declarations with
  | error f =>
    rw [hdecls] at hmeaning
    cases hmeaning
  | ok decls =>
    cases hcompile : hiddenParameter.compile {} with
    | error f =>
      rw [hcompile] at hclean
      cases hclean
    | ok u =>
      rw [hdecls] at hmeaning
      rw [hcompile] at hclean
      have huses : (moduleUses decls).map _ = _ := Option.some.inj hmeaning
      have hmem : (25, some (21, false)) ∈ [((23 : Int), some ((5 : Int), false)), (25, some (21, false))] := by simp
      rw [← huses] at hmem
      obtain ⟨use, huse, heq⟩ := List.mem_map.mp hmem
      obtain ⟨hstart, hmeans⟩ := Prod.mk.inj heq
      obtain ⟨c, fr, st, hreached, hopen⟩ := reached_of_no_errors hdecls hcompile (Option.some.inj hclean) huse
      obtain ⟨use', -, hunique, -, -, ⟨e, st', hrun, hbound⟩, -⟩ :=
        identifier_follows_scope hiddenParameter {} decls u c fr _ _ _ st hdecls hcompile hreached hopen
      obtain rfl := hunique use huse rfl
      generalize hstop : st'.stop = stop at hbound
      cases hbound with
      | unknown hnone =>
        rw [hnone] at hmeans
        cases hmeans
      | @found v i _ hfound =>
        rw [hfound] at hmeans
        refine ⟨decls, u, c, fr, st, _, _, v, i, st', rfl, rfl, hreached, hopen, hstart, hrun, ?_⟩
        exact (Prod.mk.inj (Option.some.inj hmeans)).1
      | refused hfound hfunction =>
        rw [hfound] at hmeans
        have hkind := (Prod.mk.inj (Option.some.inj hmeans)).2
        cases hkind.symm.trans hfunction

end

end RainCheck

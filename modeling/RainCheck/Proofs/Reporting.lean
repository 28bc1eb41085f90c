import Mathlib.Data.Fintype.EquivFin
import Mathlib.Data.List.Perm.Subperm
import RainCheck.Proofs.Recasting

/-!
# Every problem is reported once

The refusals of a compilation in their order (`Phase.refusalsAll`): which declaration, in which
phase, with what problem, and whether that problem was on record before.
* A problem that was not on record lies in a declaration that had not failed by then, and has now
  (`Phase.Tells`); so the problems that are reported lie in different declarations (`Reported`).
* All problems on record are reported.  So the problems that are not reported again are just those that were on record.
* These are the problems that are handed on from a record: a refusal is told from another one by
  what it would be with, were other problems on record (`Refusal.Told`).
-/

namespace RainCheck

open RainCheck.Action

/-! ### Refusals -/

/-- A phase refuses a declaration. -/
structure Refusal where
  phase : Phase
  /-- The number of the declaration. -/
  index : Nat
  decl : Decl
  /-- What is known when the phase comes to the declaration. -/
  store : Store
  problem : Diagnostic
  /-- The problem was kept with a struct or a function before. -/
  known : Bool

namespace Phase

/-- The problem that a phase refuses a declaration with, if it is asked for. -/
def refusal? (phase : Phase) (options : Options) (item : Item) (p : Progress) : Option Diagnostic :=
  if p.halted || item.failed then none
  else
    match (phase.apply options item.decl p.store).2.result with
    | .error (.refused d) => some d
    | _ => none

/-- The refusals of a phase, of which the first declaration has a given number. -/
def refusals (phase : Phase) (options : Options) : Nat → List Item → Progress → List Refusal
  | _, [], _ => []
  | n, item :: rest, p =>
    match phase.step options item p with
    | .ok (_, q) =>
      (phase.refusal? options item p).toList.map
        (fun d => ⟨phase, n, item.decl, p.store, d, p.store.recorded.contains d⟩) ++
        refusals phase options (n + 1) rest q
    | .error _ => []

/-- The refusals of phases that are applied one after the other. -/
def refusalsAll (options : Options) : List Phase → List Item → Progress → List Refusal
  | [], _, _ => []
  | phase :: rest, items, p =>
    match phase.run options items p with
    | .ok (items', q) => phase.refusals options 0 items p ++ refusalsAll options rest items' q
    | .error _ => []

end Phase

/-- The refusals of a module. -/
def moduleRefusals (options : Options) (decls : List Decl) : List Refusal :=
  Phase.refusalsAll options Phase.all (decls.map ({ decl := · })) { store := {} }

namespace Refusal

/-- A problem is handed on from a record: were other problems on record, the refusal would be with the other one. -/
def HandedOn (options : Options) (r : Refusal) : Prop :=
  ∀ other : Diagnostic → Diagnostic, (∀ d ∈ r.store.recorded, other d ∉ r.store.recorded) →
    (r.phase.apply options r.decl (r.store.recast other)).2.result = .error (.refused (other r.problem))

/-- A problem is made anew: were other problems on record, the refusal would be with the same one. -/
def MadeAnew (options : Options) (r : Refusal) : Prop :=
  ∀ other : Diagnostic → Diagnostic, (∀ d ∈ r.store.recorded, other d ∉ r.store.recorded) →
    (r.phase.apply options r.decl (r.store.recast other)).2.result = .error (.refused r.problem)

/-- A phase refuses a declaration with a problem, and known problems are those that are handed on. -/
structure Told (options : Options) (r : Refusal) : Prop where
  refused : (r.phase.apply options r.decl r.store).2.result = .error (.refused r.problem)
  handedOn : r.known = true → r.HandedOn options
  madeAnew : r.known = false → r.MadeAnew options

variable {options : Options} {r : Refusal}

/-- There are problems that are neither on record nor made: no problem is both handed on and made anew. -/
private theorem HandedOn.not_madeAnew (h : r.HandedOn options) : ¬r.MadeAnew options := by
  intro hanew
  have hinjective : Function.Injective fun n : Nat => (⟨.ofLength n 0, .unknownText⟩ : Diagnostic) := fun m n heq => by
    have hstart : (m : Int) = n := by simpa [Span.ofLength] using heq
    omega
  have := Infinite.of_injective _ hinjective
  obtain ⟨d, hd⟩ := Infinite.exists_notMem_finset (r.problem :: r.store.recorded).toFinset
  obtain ⟨hne, hnew⟩ : d ≠ r.problem ∧ d ∉ r.store.recorded := by simpa using hd
  have hother := h (fun _ => d) fun _ _ => hnew
  rw [hanew (fun _ => d) fun _ _ => hnew] at hother
  simp only [Except.error.injEq, Stop.refused.injEq] at hother
  exact hne hother.symm

private theorem Told.known_iff (h : r.Told options) :
    (r.known = true ↔ r.HandedOn options) ∧ (r.known = false ↔ r.MadeAnew options) := by
  cases hknown : r.known with
  | true =>
    have hhanded := h.handedOn hknown
    exact ⟨iff_of_true rfl hhanded, iff_of_false Bool.true_eq_false.mp hhanded.not_madeAnew⟩
  | false =>
    have hanew := h.madeAnew hknown
    exact ⟨iff_of_false Bool.false_eq_true.mp fun hhanded => hhanded.not_madeAnew hanew, iff_of_true rfl hanew⟩

end Refusal

namespace Phase

variable {phase : Phase} {options : Options} {item : Item} {p : Progress}

/-- What a phase does at one declaration, unless it raises a fault: it succeeds such that `done`, or is refused. -/
def Tells (phase : Phase) (options : Options) (d : Decl) (s : Store) (done : Store → Prop)
    (refused : Diagnostic → Store → Prop) : Prop :=
  match phase.apply options d s with
  | (_, ⟨.ok (), s'⟩) => done s'
  | (_, ⟨.error (.refused why), s'⟩) => refused why s'
  | (_, ⟨.error (.fault _), _⟩) => True

private theorem tells_runOn {d : Decl} {s : Store} {a : Action Unit} {Q : Store → Prop} {R : Diagnostic → Store → Prop}
    (happly : phase.apply options d s = (d, a.runOn s)) (h : Triple (· = s) a (fun _ => Q) R) :
    phase.Tells options d s Q R := by
  have hrun := h s rfl
  unfold Tells
  rw [happly, Action.runOn]
  rcases ha : a.run s with ⟨(why | f) | u, s'⟩ <;> rw [show a.run.run s = _ from ha] at hrun <;> exact hrun

private theorem Tells.mono {d : Decl} {s : Store} {Q Q' : Store → Prop} {R R' : Diagnostic → Store → Prop}
    (h : phase.Tells options d s Q R) (hQ : ∀ s', Q s' → Q' s') (hR : ∀ why s', R why s' → R' why s') :
    phase.Tells options d s Q' R' := by
  unfold Tells at h ⊢
  split at h
  · exact hQ _ h
  · exact hR _ _ h
  · trivial

private theorem tells_of_forall {d : Decl} {s : Store} {Q : Store → Prop}
    {R : Diagnostic → Store → Prop} (hQ : ∀ s', Q s')
    (hR : ∀ why s', R why s') : phase.Tells options d s Q R := by
  unfold Tells
  split
  · exact hQ _
  · exact hR _ _
  · trivial

/-- Where other problems are on record, a phase refuses a declaration with none of those that were. -/
def Forgets (phase : Phase) (options : Options) (d : Decl) (s : Store) : Prop :=
  ∀ other : Diagnostic → Diagnostic, (∀ e ∈ s.recorded, other e ∉ s.recorded) →
    phase.Tells options d (s.recast other) (fun _ => True) fun why _ => why ∉ s.recorded

/-- A problem that was not on record is met again where other problems are on record, and one that was, in its place. -/
private theorem Forgets.told {r : Refusal} (h : r.phase.Forgets options r.decl r.store)
    (hrefused : (r.phase.apply options r.decl r.store).2.result = .error (.refused r.problem))
    (hknown : r.known = r.store.recorded.contains r.problem) : r.Told options where
  refused := hrefused
  handedOn hold other hother := by
    rw [hknown, List.contains_iff_mem] at hold
    obtain ⟨why, hrefused', hwhy⟩ := Phase.refused_recast hrefused
    have hforgets := h other hother
    unfold Tells at hforgets
    rcases happly : r.phase.apply options r.decl (r.store.recast other) with ⟨d, ⟨result, s⟩⟩
    rw [happly] at hrefused' hforgets
    obtain rfl : result = .error (.refused why) := hrefused'
    rcases hwhy with rfl | ⟨-, rfl⟩
    · exact absurd hold hforgets
    · rfl
  madeAnew hnew other hother := by
    have hnew : r.problem ∉ r.store.recorded := by simpa [hknown] using hnew
    obtain ⟨why, hrefused', hwhy⟩ := Phase.refused_recast hrefused
    rw [hrefused', hwhy.resolve_right fun hold => hnew hold.1]

/-- What a phase leads to, and what it tells if it does not raise a fault. -/
private theorem Leads.tells {d : Decl} {s : Store} {K : Decl → Store → Prop} {E : Decl → Diagnostic → Store → Prop}
    {Q : Store → Prop} {R : Diagnostic → Store → Prop} (h : phase.Leads options d s K E)
    (htells : phase.Tells options d s Q R) :
    phase.Tells options d s (fun s' => (∃ d', K d' s') ∧ Q s') fun why s' => (∃ d', E d' why s') ∧ R why s' := by
  unfold Leads at h
  unfold Tells at htells ⊢
  rcases happly : phase.apply options d s with ⟨d', ⟨(why | f) | u, s'⟩⟩ <;> rw [happly] at h htells
  · exact ⟨⟨d', h⟩, htells⟩
  · trivial
  · exact ⟨⟨d', h⟩, htells⟩

/-- What a phase tells about a declaration holds behind it. -/
private theorem Tells.step {item' : Item} {q : Progress} {Q : Store → Prop} {R : Diagnostic → Store → Prop}
    (h : phase.Tells options item.decl p.store Q R) (hhalted : p.halted = false) (hfailed : item.failed = false)
    (hstep : phase.step options item p = .ok (item', q)) :
    item'.failed = false ∧ Q q.store ∨ item'.failed = true ∧ ∃ why, R why q.store := by
  unfold Tells at h
  rw [Phase.step, hhalted, hfailed] at hstep
  rcases happly : phase.apply options item.decl p.store with ⟨d, ⟨(why | f) | u, s⟩⟩ <;> rw [happly] at h hstep <;>
    cases hstep
  · exact .inr ⟨rfl, why, h⟩
  · exact .inl ⟨rfl, h⟩

end Phase

/-! ### The problems that are reported -/

/-- The item with a number has failed. -/
def Failed (items : List Item) (i : Nat) : Prop := ∃ item, items[i]? = some item ∧ item.failed = true

/-- The struct with a number has failed, maybe for the sake of another declaration. -/
def Store.Breaks (s : Store) (decls : List Decl) (i : Nat) : Prop :=
  ∃ d id why, decls[i]? = some (.struct d) ∧ s.typeAt? id = some (.struct d (.failed why))

private theorem failed_middle {done rest : List Item} {item : Item} {i : Nat} :
    Failed (done ++ item :: rest) i ↔
      i = done.length ∧ item.failed = true ∨ i < done.length ∧ Failed done i ∨
        done.length < i ∧ Failed rest (i - done.length - 1) := by
  unfold Failed
  rcases Nat.lt_trichotomy i done.length with hi | rfl | hi
  · rw [List.getElem?_append_left hi]
    simp [hi, Nat.ne_of_lt hi, Nat.not_lt_of_lt hi]
  · simp
  · rw [List.getElem?_append_right (Nat.le_of_lt hi)]
    obtain ⟨k, hk⟩ : ∃ k, i - done.length = k + 1 := ⟨i - done.length - 1, by omega⟩
    rw [hk, List.getElem?_cons_succ]
    simp [hi, Nat.ne_of_gt hi, Nat.not_lt_of_lt hi]

private theorem not_failed_middle {done rest : List Item} {item : Item} (hfailed : item.failed = false) :
    ¬Failed (done ++ item :: rest) done.length := by
  rw [failed_middle]
  simp [hfailed]

/--
The problems that are reported lie in different declarations, each of which has failed, and so does
whatever is on record. They are the problems of the refusals in `log` that were not known, and the
items that failed are those that were refused.
-/
structure Reported (options : Options) (owner : Span → Nat) (decls : List Decl) (log : List Refusal) (items : List Item)
    (p : Progress) : Prop where
  linked : p.store.Linked
  apart : (p.errors.map fun d => owner d.span).Nodup
  closed : ∀ d ∈ p.errors, Failed items (owner d.span) ∨ p.store.Breaks decls (owner d.span)
  recorded : ∀ d ∈ p.store.recorded, d ∈ p.errors
  errors : p.errors = (log.filter fun r => !r.known).map (·.problem)
  listed : ∀ r ∈ log, r.problem ∈ p.errors
  failed : ∀ i, Failed items i ↔ ∃ r ∈ log, r.index = i
  once : (log.map (·.index)).Nodup
  told : ∀ r ∈ log, r.Told options

/-- What a phase keeps at one declaration: what has failed stays so, and all problems that get on record are `new`. -/
structure Store.Records (s : Store) (new : Diagnostic → Prop) (s' : Store) : Prop where
  linked : s'.Linked
  failed : ∀ id d why, s.typeAt? id = some (.struct d (.failed why)) → s'.typeAt? id = some (.struct d (.failed why))
  recorded : ∀ d ∈ s'.recorded, d ∈ s.recorded ∨ new d

/-- A phase tells problems on record from those in declarations that had not failed before; the
declaration has number `n`. -/
def Phase.Separates (phase : Phase) (options : Options) (owner : Span → Nat) (decls : List Decl)
    (items : List Item) (n : Nat)
    (d : Decl) (s : Store) : Prop :=
  phase.Tells options d s (fun s' => s.Records (fun _ => False) s') fun why s' =>
    s.Records (· = why) s' ∧ (why ∈ s.recorded ∨
      (¬Failed items (owner why.span) ∧ ¬s.Breaks decls (owner why.span)) ∧
        (owner why.span = n ∨ s'.Breaks decls (owner why.span)))

private theorem Store.Breaks.mono {s s' : Store} {new : Diagnostic → Prop} {decls : List Decl}
    {i : Nat} (h : s.Breaks decls i)
    (hs : s.Records new s') : s'.Breaks decls i := by
  obtain ⟨d, id, why, hd, he⟩ := h
  exact ⟨d, id, why, hd, hs.failed id d why he⟩

section

variable {phase : Phase} {options : Options} {owner : Span → Nat} {decls : List Decl} {log : List Refusal}
  {items items' done rest : List Item} {item item' : Item} {p q : Progress} {s : Store} {why : Diagnostic}

/-- A declaration that succeeds. -/
private theorem Reported.succeed (h : Reported options owner decls log items p)
    (hs : p.store.Records (fun _ => False) s)
    (hitems : ∀ i, Failed items' i ↔ Failed items i) :
    Reported options owner decls log items' { p with store := s } where
  linked := hs.linked
  apart := h.apart
  closed d hd := (h.closed d hd).imp (hitems _).mpr fun hbreaks => hbreaks.mono hs
  recorded d hd := h.recorded d ((hs.recorded d hd).resolve_right id)
  errors := h.errors
  listed := h.listed
  failed i := (hitems i).trans (h.failed i)
  once := h.once
  told := h.told

/-- A declaration that is refused. -/
private theorem Reported.refuse {r : Refusal} (h : Reported options owner decls log items p) (htold : r.Told options)
    (hs : p.store.Records (· = r.problem) s) (hr : ¬Failed items r.index)
    (hitems : ∀ i, Failed items' i ↔ Failed items i ∨ r.index = i)
    (hknown : r.known = p.store.recorded.contains r.problem)
    (hproblem : r.problem ∈ p.store.recorded ∨
      (¬Failed items (owner r.problem.span) ∧ ¬p.store.Breaks decls (owner r.problem.span)) ∧
        (owner r.problem.span = r.index ∨ s.Breaks decls (owner r.problem.span))) :
    Reported options owner decls (log ++ [r]) items' (p.refuse options r.problem s) := by
  have hmem : ∀ {d}, d ∈ (p.refuse options r.problem s).errors ↔ d ∈ p.errors ∨ d = r.problem := Progress.mem_refuse
  have hclosed : ∀ d ∈ p.errors, Failed items' (owner d.span) ∨ s.Breaks decls (owner d.span) := fun d hd =>
    (h.closed d hd).imp (fun hfailed => (hitems _).mpr (.inl hfailed)) fun hbreaks => hbreaks.mono hs
  have hrecorded : ∀ d ∈ s.recorded, d ∈ (p.refuse options r.problem s).errors := fun d hd =>
    hmem.mpr ((hs.recorded d hd).imp_left (h.recorded d))
  have hlisted : ∀ r' ∈ log ++ [r], r'.problem ∈ (p.refuse options r.problem s).errors := by
    intro r' hr'
    rcases List.mem_append.mp hr' with hr' | hr'
    · exact hmem.mpr (.inl (h.listed r' hr'))
    · exact hmem.mpr (.inr (List.mem_singleton.mp hr' ▸ rfl))
  have hfailed : ∀ i, Failed items' i ↔ ∃ r' ∈ log ++ [r], r'.index = i := by
    intro i
    rw [hitems, h.failed]
    simp only [List.mem_append, List.mem_singleton, or_and_right, exists_or, exists_eq_left]
  have honce : ((log ++ [r]).map (·.index)).Nodup := by
    rw [List.map_append, List.map_singleton, List.nodup_append]
    refine ⟨h.once, by simp, fun a ha b hb => ?_⟩
    obtain ⟨r', hr', rfl⟩ := List.mem_map.mp ha
    rw [List.mem_singleton.mp hb]
    exact fun heq => hr ((h.failed r.index).mpr ⟨r', hr', heq⟩)
  have hall : ∀ r' ∈ log ++ [r], r'.Told options := by
    intro r' hr'
    rcases List.mem_append.mp hr' with hr' | hr'
    · exact h.told r' hr'
    · exact List.mem_singleton.mp hr' ▸ htold
  by_cases hold : r.problem ∈ p.store.recorded
  · -- the problem is reported already
    have herrors : (p.refuse options r.problem s).errors = p.errors := by
      have hcontains : p.errors.contains r.problem = true := List.contains_iff_mem.mpr (h.recorded _ hold)
      rw [Progress.refuse, Progress.report, if_pos hcontains]
    refine ⟨hs.linked, herrors ▸ h.apart, herrors ▸ hclosed, hrecorded, ?_, hlisted, hfailed, honce, hall⟩
    rw [herrors, h.errors, List.filter_append, List.filter_singleton, hknown, List.contains_iff_mem.mpr hold]
    simp
  · obtain ⟨⟨hopen, hwhole⟩, hends⟩ := hproblem.resolve_left hold
    -- whatever is reported lies in declarations that have failed, so it lies elsewhere
    have hne : ∀ d ∈ p.errors, owner d.span ≠ owner r.problem.span := fun d hd heq =>
      (h.closed d hd).elim (fun hfailed => hopen (heq ▸ hfailed)) fun hbreaks => hwhole (heq ▸ hbreaks)
    have hnew : r.problem ∉ p.errors := fun hd => hne _ hd rfl
    have herrors : (p.refuse options r.problem s).errors = p.errors ++ [r.problem] := by
      rw [Progress.refuse, Progress.report, if_neg (by simpa using hnew)]
    refine ⟨hs.linked, ?_, fun d hd => ?_, hrecorded, ?_, hlisted, hfailed, honce, hall⟩
    · rw [herrors, List.map_append, List.map_singleton, List.nodup_append]
      refine ⟨h.apart, by simp, fun a ha b hb => ?_⟩
      obtain ⟨d, hd, rfl⟩ := List.mem_map.mp ha
      rw [List.mem_singleton.mp hb]
      exact hne d hd
    · rcases hmem.mp hd with hd | rfl
      · exact hclosed d hd
      · exact hends.imp_left fun hown => (hitems _).mpr (.inr hown.symm)
    · have hunknown : r.known = false := by simpa [hknown] using hold
      rw [herrors, h.errors, List.filter_append, List.map_append, List.filter_singleton, hunknown]
      simp

/-- A problem on record lies in a declaration that has failed. -/
theorem Reported.accounted (h : Reported options owner decls log items p) (hold : why ∈ p.store.recorded) :
    Failed items (owner why.span) ∨ p.store.Breaks decls (owner why.span) :=
  h.closed why (h.recorded why hold)

/-- One declaration: if it is refused with a problem that was not on record, then the problem is reported. -/
theorem Reported.step (h : Reported options owner decls log (done ++ item :: rest) p)
    (hstep : phase.step options item p = .ok (item', q))
    (hphase : p.halted = false → item.failed = false →
      phase.Separates options owner decls (done ++ item :: rest) done.length item.decl p.store ∧
        phase.Forgets options item.decl p.store) :
    Reported options owner decls
      (log ++ (phase.refusal? options item p).toList.map fun d =>
        ⟨phase, done.length, item.decl, p.store, d, p.store.recorded.contains d⟩)
      (done ++ item' :: rest) q := by
  unfold Phase.refusal?
  by_cases hskip : p.halted = true ∨ item.failed = true
  · rw [Phase.step_skip hskip] at hstep
    cases hstep
    rw [if_pos (by simpa using hskip)]
    simpa using h
  obtain ⟨hhalted, hfailed⟩ : p.halted = false ∧ item.failed = false := by simpa using hskip
  obtain ⟨hseparates, hforgets⟩ := hphase hhalted hfailed
  unfold Phase.Separates Phase.Tells at hseparates
  rw [if_neg (by simpa using hskip)]
  rcases happly : phase.apply options item.decl p.store with ⟨d, ⟨(why | f) | u, s⟩⟩ <;> rw [happly] at hseparates
  · rw [Phase.step_of_refused hhalted hfailed happly] at hstep
    cases hstep
    have htold : Refusal.Told options
        ⟨phase, done.length, item.decl, p.store, why, p.store.recorded.contains why⟩ :=
      hforgets.told (by rw [happly]) rfl
    refine h.refuse htold hseparates.1 (not_failed_middle hfailed) (fun i => ?_) rfl hseparates.2
    rw [failed_middle, failed_middle, hfailed]
    simp only [and_true, Bool.false_eq_true, and_false, false_or]
    exact ⟨fun h => h.elim (fun h => .inr h.symm) .inl, fun h => h.elim .inr fun h => .inl h.symm⟩
  · rw [Phase.step, hhalted, hfailed, happly] at hstep
    cases hstep
  · rw [Phase.step_of_ok hhalted hfailed happly] at hstep
    cases hstep
    rw [Option.toList_none, List.map_nil, List.append_nil]
    refine h.succeed hseparates fun i => ?_
    rw [failed_middle, failed_middle, hfailed]

/-- A whole phase; `K` tells the declarations that are done from those behind. -/
private theorem Phase.run_reports (K : List Item → List Item → Progress → Prop)
    (hstep : ∀ log done item rest p, K done (item :: rest) p →
      Reported options owner decls log (done ++ item :: rest) p →
        (∃ item' p', phase.step options item p = .ok (item', p') ∧ K (done ++ [item']) rest p') ∧
          (p.halted = false → item.failed = false →
            phase.Separates options owner decls (done ++ item :: rest) done.length item.decl p.store ∧
              phase.Forgets options item.decl p.store))
    (hK : K [] items p) (h : Reported options owner decls log items p) :
    ∃ items' q, phase.run options items p = .ok (items', q) ∧ K items' [] q ∧ items'.length = items.length ∧
      Reported options owner decls (log ++ phase.refusals options 0 items p) items' q := by
  suffices hbehind : ∀ done, K done items p → Reported options owner decls log (done ++ items) p →
      ∃ items' q, phase.run options items p = .ok (items', q) ∧ K (done ++ items') [] q ∧ items'.length = items.length ∧
        Reported options owner decls (log ++ phase.refusals options done.length items p) (done ++ items') q from
    hbehind [] hK h
  clear hK h
  induction items generalizing log p with
  | nil => exact fun done hK h => ⟨[], p, rfl, by simpa using hK, rfl, by simpa [refusals] using h⟩
  | cons item rest ih =>
    intro done hK h
    obtain ⟨⟨item', p', hitem, hK'⟩, hphase⟩ := hstep log done item rest p hK h
    have h' := h.step hitem hphase
    obtain ⟨rest', q, hrest, hKq, hlength, hq⟩ := ih _ hK' (by simpa using h')
    refine ⟨item' :: rest', q, ?_, by simpa using hKq, by simp [hlength], ?_⟩
    · rw [run_cons, hitem, ok_bind]
      dsimp only
      rw [hrest]
      rfl
    · rw [refusals, hitem]
      simpa using hq

/-! ### Names are registered -/

/-- Frames are changed. -/
private theorem triple_updateFrames {J : Store → Prop} {change : Frames → Except Stop Frames}
    (hJ : ∀ s frames, J s → J { s with frames }) : Triple J (updateFrames change) (fun _ => J) fun _ => J := by
  refine triple_get fun s hs => ?_
  cases hchange : change s.frames with
  | ok frames => exact fun _ _ => hJ s frames hs
  | error stop =>
    cases stop with
    | refused d => exact fun _ heq => heq ▸ hs
    | fault g => exact fun _ _ => trivial

/-- A struct that stands elsewhere than those before gets a type of its own. -/
private theorem register_linked (d : Decl) :
    Triple (fun s => s.Linked ∧ ∀ id e state, s.typeAt? id = some (.struct e state) → e.span ≠ d.span)
      (Phase.register FrameId.module d) (fun _ => Store.Linked) fun _ => Store.Linked := by
  have hframes : ∀ {change : Frames → Except Stop Frames},
      Triple Store.Linked (updateFrames change) (fun _ => Store.Linked) fun _ => Store.Linked :=
    triple_updateFrames fun _ _ hs => hs
  cases d with
  | struct d =>
    change Triple _ (registerStruct FrameId.module d) _ _
    unfold registerStruct
    refine triple_get fun s ⟨hs, hnew⟩ => ?_
    split
    · exact fun _ heq => heq ▸ hs
    rename_i hunregistered
    -- the new type is the only one for this struct
    let J : TypeId → Store → Prop := fun type s =>
      s.Linked ∧ ∀ id e state, s.typeAt? id = some (.struct e state) → e.span = d.span → id = type
    have hadd : Triple (· = s) (updateTypes (·.addStruct d)) J fun _ => Store.Linked := by
      rintro s₁ rfl
      refine ⟨fun id e state r he hr => ?_, fun id e state he hspan => ?_⟩
      · rcases Store.entry_addType.mp he with he | ⟨-, heq⟩
        · exact hs id e state r he hr
        · cases heq
          rw [show s₁.structs.find? d.span = some r from hr] at hunregistered
          exact absurd rfl hunregistered
      · rcases Store.entry_addType.mp he with he | ⟨hid, -⟩
        · exact absurd hspan (hnew id e state he)
        · exact hid
    refine hadd.bind fun type => ?_
    have hdeclare :
        Triple (J type) (declareType FrameId.module d.name type d.span) (fun _ => J type) fun _ => Store.Linked :=
      (triple_updateFrames fun _ _ hs => hs).mono (fun _ h => h) (fun _ _ h => h) fun _ _ h => h.1
    refine hdeclare.bind fun _ => Triple.bind (Q := fun _ => Store.Linked) ?_ fun _ => ?_
    · rintro s' ⟨hs', hone⟩ id e state r he hr
      rw [Records.find?_insert] at hr
      split at hr
      · rename_i hspan
        cases hr
        exact (hone id e state he hspan).symm
      · exact hs' id e state r he hr
    · split
      · exact hframes
      · exact fun _ h => h
  | function f =>
    change Triple _ (registerFunction FrameId.module f.header) _ _
    unfold registerFunction
    refine triple_get fun s ⟨hs, _⟩ => ?_
    split
    · exact fun _ heq => heq ▸ hs
    have hdeclare :
        Triple (· = s) (declare FrameId.module f.header.binding) (fun _ => Store.Linked) fun _ => Store.Linked :=
      hframes.start hs
    refine hdeclare.bind fun _ => Triple.bind (Q := fun _ => Store.Linked) (fun _ hs => hs) fun _ => ?_
    split
    · exact hframes
    · exact fun _ h => h

/-- While names are registered, nothing is on record. -/
private theorem Registered.not_failed {names : List Decl} {m x : Frame} (h : Registered names m x s)
    (id : TypeId) (d : StructDecl)
    (why : Diagnostic) : s.typeAt? id ≠ some (.struct d (.failed why)) := by
  intro he
  rcases h.entries id _ he with ⟨name, hname⟩ | ⟨e, -, hstruct⟩
  · cases hname
  · cases hstruct

private theorem Registered.not_recorded {names : List Decl} {m x : Frame}
    (h : Registered names m x s) (d : Diagnostic) :
    d ∉ s.recorded := by
  intro hd
  rcases Store.mem_recorded.mp hd with ⟨id, decl, he⟩ | ⟨key, hkey⟩
  · exact h.not_failed id decl d he
  · rcases h.functions key with hnew | ⟨hnew, -⟩ <;> rw [hnew] at hkey <;> cases hkey

private theorem Registered.records {names names' : List Decl} {m x m' x' : Frame} {s' : Store} {new : Diagnostic → Prop}
    (h : Registered names m x s) (h' : Registered names' m' x' s') (hlinked : s'.Linked) : s.Records new s' where
  linked := hlinked
  failed id d why he := absurd he (h.not_failed id d why)
  recorded d hd := absurd hd (h'.not_recorded d)

/-- The number of a declaration, behind those that are done. -/
private theorem getElem?_middle (hitems : (done ++ item :: rest).map (·.decl) = decls) :
    decls[done.length]? = some item.decl := by
  rw [← hitems, List.getElem?_map, List.getElem?_append_right (Nat.le_refl _)]
  simp

/-- A name that is taken is a problem of the declaration that wants it. -/
private theorem Registering.separates (hparsed : Parsed decls) (hplaced : Placed owner decls)
    (h : Registering options decls done (item :: rest) p) (hlinked : p.store.Linked) (hhalted : p.halted = false)
    (hfailed : item.failed = false) :
    Phase.registration.Separates options owner decls (done ++ item :: rest) done.length item.decl p.store := by
  obtain ⟨m, x, hregistered⟩ := h.registered hhalted
  have hitems : done.map (·.decl) ++ item.decl :: rest.map (·.decl) = decls := by simpa using h.items
  have hspans : ∀ e ∈ done.map (·.decl), e.span ≠ item.decl.span := fun e he => (hitems ▸ hparsed).span_ne he
  have hnew : ∀ id e state, p.store.typeAt? id = some (.struct e state) → e.span ≠ item.decl.span := by
    intro id e state he
    rcases hregistered.entries id _ he with ⟨name, hname⟩ | ⟨d, hd, hstruct⟩
    · cases hname
    · cases hstruct
      exact hspans _ hd
  have howner : owner item.decl.span = done.length := Decl.Lies.name (hplaced _ _ (getElem?_middle h.items))
  have hlinks : Phase.registration.Tells options item.decl p.store Store.Linked fun _ => Store.Linked :=
    Phase.tells_runOn rfl ((register_linked item.decl).start ⟨hlinked, hnew⟩)
  refine ((Phase.leads_runOn rfl (registers hregistered hspans)).tells hlinks).mono ?_ ?_
  · rintro s' ⟨⟨d, -, -, m', x', h'⟩, hlinked'⟩
    exact hregistered.records h' hlinked'
  · rintro _ s' ⟨⟨d, -, -, rfl, m', x', h'⟩, hlinked'⟩
    refine ⟨hregistered.records h' hlinked', .inr ⟨⟨?_, ?_⟩, .inl howner⟩⟩
    · rw [howner]
      exact not_failed_middle hfailed
    · rintro ⟨d, id, why, -, he⟩
      exact hregistered.not_failed id d why he

/-- Nothing is on record that could be forgotten. -/
private theorem Registering.forgets (h : Registering options decls done (item :: rest) p) (hhalted : p.halted = false) :
    Phase.registration.Forgets options item.decl p.store := by
  obtain ⟨m, x, hregistered⟩ := h.registered hhalted
  exact fun _ _ => Phase.tells_of_forall (fun _ => trivial) fun why _ => hregistered.not_recorded why

/-- What holds while names are registered; a declaration is refused if its name belongs to another one. -/
structure Naming (options : Options) (decls : List Decl) (done rest : List Item) (p : Progress) : Prop
    extends Registering options decls done rest p where
  taken : p.halted = false → ∀ i ∈ done, i.failed = true → ¬i.decl.Owns decls

/-- The name of a declaration belongs to one before. -/
private theorem Parsed.not_owns {before behind : List Decl} {d : Decl} (h : Parsed (before ++ d :: behind))
    (htaken : ∃ e ∈ before, e.name = d.name) : ¬d.Owns (before ++ d :: behind) := by
  intro howns
  obtain ⟨e, he, hname⟩ := htaken
  have hsome : (before.find? (·.name = d.name)).isSome = true :=
    List.find?_isSome.mpr ⟨e, he, decide_eq_true hname⟩
  obtain ⟨first, hfirst⟩ := Option.isSome_iff_exists.mp hsome
  rw [Decl.Owns, List.find?_append, hfirst, Option.some_or] at howns
  cases howns
  exact h.span_ne (List.mem_of_find?_eq_some hfirst) rfl

private theorem Naming.step (hparsed : Parsed decls) (h : Naming options decls done (item :: rest) p) :
    ∃ item' p', Phase.registration.step options item p = .ok (item', p') ∧
      Naming options decls (done ++ [item']) rest p' := by
  obtain ⟨item', p', hstep, h'⟩ := h.toRegistering.step hparsed
  refine ⟨item', p', hstep, h', fun hhalted' i hi hi' => ?_⟩
  have hfailed : item.failed = false := h.untried item List.mem_cons_self
  cases hhalted : p.halted with
  | true =>
    rw [Phase.step_skip (.inl hhalted)] at hstep
    cases hstep
    rw [hhalted] at hhalted'
    cases hhalted'
  | false =>
    rcases List.mem_append.mp hi with hi | hi
    · exact h.taken hhalted i hi hi'
    obtain rfl := List.mem_singleton.mp hi
    obtain ⟨m, x, hregistered⟩ := h.registered hhalted
    have hitems : done.map (·.decl) ++ item.decl :: rest.map (·.decl) = decls := by simpa using h.items
    have hspans : ∀ e ∈ done.map (·.decl), e.span ≠ item.decl.span := fun e he => (hitems ▸ hparsed).span_ne he
    have hleads : Phase.registration.Leads options item.decl p.store _ _ :=
      Phase.leads_runOn rfl (registers hregistered hspans)
    rcases hleads.step hhalted hfailed with ⟨d, s, hstep', -⟩ | ⟨d, why, s, hstep', rfl, htaken, -⟩
    · cases hstep.symm.trans hstep'
      cases hi'
    · cases hstep.symm.trans hstep'
      exact hitems ▸ (hitems ▸ hparsed).not_owns htaken

/-! ### Types of structs and functions -/

/-- The structs in a store are those of the module, and so are the functions that are registered or in its frames. -/
structure Store.Houses (s : Store) (decls : List Decl) : Prop where
  structs : ∀ id d state, s.typeAt? id = some (.struct d state) → .struct d ∈ decls
  functions : ∀ fr f p, s.frame? fr = some f → p ∈ f.values → ∃ g, (Decl.function g).Owns decls ∧
    p.2.span = g.header.span
  registered : ∀ key, (s.function key).variableType.isSome = true →
    ∃ g, (Decl.function g).Owns decls ∧ key = g.header.span

private theorem Store.Houses.retyped {s' : Store} {new : Diagnostic → Prop} (h : s.Houses decls)
    (hs' : s.Retyped new s') :
    s'.Houses decls where
  structs id d state he := by
    obtain ⟨state₀, he₀, -⟩ := hs'.before id d state he
    exact h.structs id d state₀ he₀
  functions fr f p hf hp := by
    rw [Store.frame?, hs'.frames] at hf
    exact h.functions fr f p hf hp
  registered key hkey := by
    rw [Store.function, hs'.functions] at hkey
    exact h.registered key hkey

private theorem Registered.houses {m x : Frame} (h : Registered decls m x s) : s.Houses decls where
  structs id d state he := by
    rcases h.entries id _ he with ⟨name, hname⟩ | ⟨e, he', hstruct⟩
    · cases hname
    · cases hstruct
      exact he'
  functions fr f p hf hp := by
    have hmodule : p ∈ m.values → ∃ g, (Decl.function g).Owns decls ∧ p.2.span = g.header.span := by
      intro hp
      rw [h.values] at hp
      obtain ⟨v, hv, rfl⟩ := List.mem_map.mp hp
      obtain ⟨-, g, rfl, hfind⟩ := mem_functionsBehind hv
      exact ⟨g, hfind, rfl⟩
    rcases h.frame_cases hf with ⟨-, rfl⟩ | ⟨-, rfl⟩ | ⟨-, rfl⟩
    · cases hp
    · exact hmodule hp
    · exact hmodule (h.exportedValues p hp)
  registered key hkey := by
    rcases h.functions key with hnew | ⟨-, g, hg, hspan⟩
    · rw [hnew] at hkey
      cases hkey
    · exact ⟨g, hg, hspan.symm⟩

/-- What holds while structs are resolved: what has failed is decided, and so is what is done. -/
structure Completing (options : Options) (decls : List Decl) (done rest : List Item) (p : Progress) : Prop where
  underway : Underway options decls (done ++ rest) p
  items : (done ++ rest).map (·.decl) = decls
  houses : p.halted = false → p.store.Houses decls
  failed : p.halted = false → ∀ i ∈ done ++ rest, i.failed = true → i.decl.Owns decls →
    ∃ d, i.decl = .struct d ∧ p.store.Decided true d
  decided : p.halted = false → ∀ i ∈ done, i.decl.Owns decls → ∀ d, i.decl = .struct d →
    ∃ failed, p.store.Decided failed d

private theorem Naming.completing (hparsed : Parsed decls) (h : Naming options decls items [] p) :
    Completing options decls [] items p where
  underway := h.underway hparsed
  items := by simpa using h.items
  houses hhalted := by
    obtain ⟨m, x, hregistered⟩ := h.registered hhalted
    have hitems : items.map (·.decl) = decls := by simpa using h.items
    exact (hitems ▸ hregistered).houses
  failed hhalted i hi hfailed howns := absurd howns (h.taken hhalted i hi hfailed)
  decided _ _ hi := by cases hi

private theorem triple_discard {α : Type} {a : Action α} {I K : Store → Prop} {R : Diagnostic → Store → Prop}
    (h : Triple I a (fun _ => K) R) : Triple I (discard a) (fun _ => K) R := by
  rw [Action.discard_eq]
  exact h.bind fun _ _ hs => hs

/-- A registered struct is resolved, or its problem is on record, or fresh. -/
private theorem resolveStruct_triple {fr : FrameId} {d : StructDecl} {state : StructState}
    {r : StructRecord} (hlinked : s.Linked)
    (hr : s.structs.find? d.span = some r) (he : s.typeAt? r.type = some (.struct d state))
    (hstate : state ≠ .resolving) :
    Triple (· = s) (discard (resolveStruct fr d)) (fun _ s' => s.Retyped (fun _ => False) s')
      fun why s' => s.Retyped (· = why) s' ∧ (why ∈ s.recorded ∨ s.Fresh why s') := by
  have hregistered : Triple (· = s) (registerStruct fr d) (fun _ s' => s' = s)
      fun why s' => s.Retyped (· = why) s' ∧ (why ∈ s.recorded ∨ s.Fresh why s') := by
    unfold registerStruct
    refine triple_get fun s₁ hs₁ => ?_
    subst hs₁
    rw [hr, Option.isSome_some, if_pos rfl]
    exact fun _ h => h
  refine triple_discard (hregistered.bind fun _ => triple_get fun s₁ hs₁ => ?_)
  subst hs₁
  rw [hr, unwrap_some, lift, pure_bind]
  exact complete_triple hlinked he hstate

private theorem Store.Retyped.records {s' : Store} {new : Diagnostic → Prop} (h : s.Retyped new s') (hlinked : s.Linked)
    (hg : s.GrowsTo s') : s.Records new s' where
  linked := h.linked hlinked
  failed _ _ _ he := hg.failed he
  recorded _ hd := h.mem_recorded hd

private theorem Store.Records.refl {new : Diagnostic → Prop} (hlinked : s.Linked) : s.Records new s :=
  ⟨hlinked, fun _ _ _ he => he, fun _ hd => .inl hd⟩

/-- No struct is being resolved between declarations. -/
theorem Resting.not_resolving {todo : List Decl} {id : TypeId} {d : StructDecl} (h : Resting decls todo s) :
    s.typeAt? id ≠ some (.struct d .resolving) := by
  intro he
  have hmem := (h.sound.types.resolving id).mpr ⟨d, he⟩
  rw [h.idle] at hmem
  cases hmem

/-- A struct of the module is resolved, or its problem is on record, or fresh. -/
private theorem Resting.tells_structs {todo : List Decl} {d : StructDecl}
    (h : Resting decls todo s) (hlinked : s.Linked)
    (hd : (Decl.struct d).Owns decls) :
    Phase.structs.Tells options (.struct d) s (fun s' => s.Retyped (fun _ => False) s' ∧ s.GrowsTo s')
      fun why s' => (s.Retyped (· = why) s' ∧ (why ∈ s.recorded ∨ s.Fresh why s')) ∧ s.GrowsTo s' := by
  obtain ⟨t, state, hr, he⟩ := h.structs d hd
  have hstate : state ≠ .resolving := fun heq => h.not_resolving (heq ▸ he)
  have htells : Phase.structs.Tells options (.struct d) s (fun s' => s.Retyped (fun _ => False) s')
      fun why s' => s.Retyped (· = why) s' ∧ (why ∈ s.recorded ∨ s.Fresh why s') :=
    Phase.tells_runOn rfl (resolveStruct_triple hlinked hr he hstate)
  refine ((studies_structs options decls _ _ _ h hd).tells htells).mono ?_ ?_
  · exact fun s' ⟨⟨_, _, _, hg, _⟩, hs'⟩ => ⟨hs', hg.toGrowsTo⟩
  · exact fun why s' ⟨⟨_, _, _, hg, _⟩, hs'⟩ => ⟨hs', hg.toGrowsTo⟩

/-- A registered struct that nobody has looked at has not failed. -/
private theorem Completing.untouched (hplaced : Placed owner decls) (h : Completing options decls done rest p)
    (hlinked : p.store.Linked)
    (hhalted : p.halted = false) {id : TypeId} {d : StructDecl} {span : Span}
    (he : p.store.typeAt? id = some (.struct d .unresolved))
    (hregistered : (p.store.structs.find? d.span).isSome = true)
    (hspan : d.Spreads span) :
    (¬Failed (done ++ rest) (owner span) ∧ ¬p.store.Breaks decls (owner span)) ∧
      decls[owner span]? = some (.struct d) := by
  obtain ⟨r, hr⟩ := Option.isSome_iff_exists.mp hregistered
  have hmem : .struct d ∈ decls := (h.houses hhalted).structs id d _ he
  obtain ⟨j, hj⟩ := List.mem_iff_getElem?.mp hmem
  have howner : owner span = j := StructDecl.Lies.spreads (hplaced j _ hj) hspan
  have hid : r.type = id := hlinked id d _ r he hr
  rw [howner]
  refine ⟨⟨?_, ?_⟩, hj⟩
  · rintro ⟨item, hitem, hitem'⟩
    have hdecl : item.decl = .struct d := by
      rw [← h.items, List.getElem?_map, hitem] at hj
      exact Option.some.inj hj
    have howns : (Decl.struct d).Owns decls := by
      by_contra hother
      exact ((h.underway.resting hhalted).taken _ hmem hother).unnoted hregistered
    obtain ⟨e, he', t, state, hr', ht, hstate⟩ :=
      h.failed hhalted item (List.mem_of_getElem? hitem) hitem' (hdecl ▸ howns)
    cases hdecl.symm.trans he'
    obtain ⟨why', rfl⟩ := hstate
    obtain rfl : t = id := (hlinked t d _ _ ht hr').symm.trans (hlinked id d _ _ he hr')
    cases he.symm.trans ht
  · rintro ⟨e, id', why', he', hid'⟩
    cases hj.symm.trans he'
    obtain rfl : id' = id := (hlinked id' d _ r hid' hr).symm.trans hid
    cases he.symm.trans hid'

private theorem Completing.separates (hplaced : Placed owner decls) (h : Completing options decls done (item :: rest) p)
    (hlinked : p.store.Linked) (hhalted : p.halted = false) (hfailed : item.failed = false) :
    Phase.structs.Separates options owner decls (done ++ item :: rest) done.length item.decl p.store := by
  have howns := h.underway.owns hhalted item (by simp) hfailed
  cases hdecl : item.decl with
  | function f => exact .refl hlinked
  | struct d =>
    refine ((h.underway.resting hhalted).tells_structs hlinked (hdecl ▸ howns)).mono ?_ ?_
    · exact fun s' ⟨hs', hg⟩ => hs'.records hlinked hg
    · rintro why s' ⟨⟨hs', hwhy⟩, hg⟩
      refine ⟨hs'.records hlinked hg, hwhy.imp_right fun ⟨id, e, he, hregistered, hbroken, hspan⟩ => ?_⟩
      obtain ⟨hopen, hnumber⟩ := h.untouched hplaced hlinked hhalted he hregistered hspan
      exact ⟨hopen, .inr ⟨e, id, why, hnumber, hbroken⟩⟩

/-- A struct is refused with a problem that is on record, or with one of a struct that has not failed. -/
private theorem Completing.forgets (hplaced : Placed owner decls) (h : Completing options decls done (item :: rest) p)
    (hreported : Reported options owner decls log (done ++ item :: rest) p) (hhalted : p.halted = false)
    (hfailed : item.failed = false) : Phase.structs.Forgets options item.decl p.store := by
  intro other hother
  have howns := h.underway.owns hhalted item (by simp) hfailed
  have hlinked := hreported.linked
  cases hdecl : item.decl with
  | function f => exact trivial
  | struct d =>
    obtain ⟨t, state, hr, he⟩ := (h.underway.resting hhalted).structs d (hdecl ▸ howns)
    have hrecast : (p.store.recast other).typeAt? t = some (.struct d (state.mapProblem _)) :=
      Store.typeAt?_mapProblems.mpr ⟨state, he, rfl⟩
    have hstate : state.mapProblem (fun d => if d ∈ p.store.recorded then other d else d) ≠ .resolving := by
      cases state with
      | resolving => exact absurd he (h.underway.resting hhalted).not_resolving
      | _ => simp [StructState.mapProblem]
    have htells : Phase.structs.Tells options (.struct d) (p.store.recast other) _ _ :=
      Phase.tells_runOn rfl (resolveStruct_triple hlinked.mapProblems hr hrecast hstate)
    refine htells.mono (fun _ _ => trivial) fun why s' hs' hold => ?_
    obtain ⟨-, hwhy | ⟨id, e, he, hregistered, -, hspan⟩⟩ := hs'
    · exact Store.not_mem_recorded_recast hother hold hwhy
    · obtain ⟨hopen, -⟩ := h.untouched hplaced hlinked hhalted
        ((Store.typeAt?_mapProblems_of_open (by simp)).mp he) hregistered hspan
      exact (hreported.accounted hold).elim hopen.1 hopen.2

private theorem Completing.step (h : Completing options decls done (item :: rest) p) (hlinked : p.store.Linked) :
    ∃ item' p', Phase.structs.step options item p = .ok (item', p') ∧
      Completing options decls (done ++ [item']) rest p' := by
  obtain ⟨item', p', hstep, hdecl, h', hg, hP⟩ := (studies_structs options decls).step h.underway
  have hitems : (done ++ [item'] ++ rest).map (·.decl) = decls := by simpa [hdecl] using h.items
  refine ⟨item', p', hstep, ?_⟩
  cases hhalted : p.halted with
  | true =>
    rw [Phase.step_skip (.inl hhalted)] at hstep
    cases hstep
    have hvacuous : ∀ {q : Prop}, p.halted = false → q := fun hrunning => by
      rw [hhalted] at hrunning
      cases hrunning
    exact ⟨h', hitems, hvacuous, hvacuous, hvacuous⟩
  | false =>
    have hold : ∀ i ∈ done ++ item :: rest, i.failed = true → i.decl.Owns decls →
        ∃ d, i.decl = .struct d ∧ p'.store.Decided true d := fun i hi hfailed howns => by
      obtain ⟨d, hd, hdecided⟩ := h.failed hhalted i hi hfailed howns
      exact ⟨d, hd, hg.decided hdecided⟩
    have hdone : ∀ i ∈ done, i.decl.Owns decls → ∀ d, i.decl = .struct d → ∃ failed, p'.store.Decided failed d :=
      fun i hi howns d hd => (h.decided hhalted i hi howns d hd).imp fun _ hdecided => hg.decided hdecided
    -- a struct that failed before is skipped, and its failure is on record
    cases hfailed : item.failed with
    | true =>
      rw [Phase.step_skip (.inr hfailed)] at hstep
      cases hstep
      refine ⟨h', hitems, h.houses, fun _ i hi => hold i (by simpa using hi), fun _ i hi howns d hd => ?_⟩
      rcases List.mem_append.mp hi with hi | hi
      · exact hdone i hi howns d hd
      · obtain rfl := List.mem_singleton.mp hi
        obtain ⟨e, he, hdecided⟩ := hold i (by simp) hfailed howns
        cases he.symm.trans hd
        exact ⟨true, hdecided⟩
    | false =>
      have howns := h.underway.owns hhalted item (by simp) hfailed
      have htells : Phase.structs.Tells options item.decl p.store (fun s' => s'.Houses decls)
          fun _ s' => (∃ d, item.decl = .struct d) ∧ s'.Houses decls := by
        cases hdecl : item.decl with
        | function f => exact h.houses hhalted
        | struct d =>
          refine ((h.underway.resting hhalted).tells_structs hlinked (hdecl ▸ howns)).mono ?_ ?_
          · exact fun s' hs' => (h.houses hhalted).retyped hs'.1
          · exact fun _ s' hs' => ⟨⟨d, rfl⟩, (h.houses hhalted).retyped hs'.1.1⟩
      have htold := htells.step hhalted hfailed hstep
      refine ⟨h', hitems, fun _ => ?_, fun _ i hi hi' howns' => ?_, fun _ i hi howns' d hd => ?_⟩
      · exact htold.elim (·.2) fun h => h.2.choose_spec.2
      · simp only [List.append_assoc, List.mem_append, List.cons_append, List.nil_append, List.mem_cons] at hi
        rcases hi with hi | rfl | hi
        · exact hold i (by simp [hi]) hi' howns'
        · rcases htold with ⟨hfine, -⟩ | ⟨-, why, ⟨d, hd⟩, -⟩
          · rw [hi'] at hfine
            cases hfine
          · exact ⟨d, hdecl.trans hd, hi' ▸ hP hhalted hfailed d hd⟩
        · exact hold i (by simp [hi]) hi' howns'
      · rcases List.mem_append.mp hi with hi | hi
        · exact hdone i hi howns' d hd
        · obtain rfl := List.mem_singleton.mp hi
          exact ⟨i.failed, hP hhalted hfailed d (hdecl.symm.trans hd)⟩

/-- Problems on record are known. -/
private theorem Store.Fit.self {known : Diagnostic → Prop} {pending : Span → Prop} (h : s.Fit known pending) :
    s.Fit (· ∈ s.recorded) pending :=
  { h with recorded := fun _ hd => hd }

/-- The functions whose types are still to be resolved. -/
def Waiting (items : List Item) (key : Span) : Prop :=
  ∃ i ∈ items, i.failed = false ∧ ∃ f, i.decl = .function f ∧ f.header.span = key

/-- What holds while the types of functions are resolved. -/
structure Signing (options : Options) (decls : List Decl) (done rest : List Item) (p : Progress) : Prop where
  underway : Underway options decls (done ++ rest) p
  items : (done ++ rest).map (·.decl) = decls
  fit : p.halted = false → p.store.Fit (· ∈ p.store.recorded) (Waiting rest)

/-- A function that has its name is still to be resolved. -/
private theorem Completing.waiting (h : Completing options decls items [] p)
    (hhalted : p.halted = false) {g : FunctionDecl}
    (howns : (Decl.function g).Owns decls) : Waiting items g.header.span := by
  obtain ⟨i, hi, hdecl⟩ := List.mem_map.mp (h.items ▸ howns.mem)
  refine ⟨i, by simpa using hi, ?_, g, hdecl, rfl⟩
  by_contra hfailed
  obtain ⟨d, hd, -⟩ := h.failed hhalted i hi (by simpa using hfailed) (hdecl ▸ howns)
  cases hdecl.symm.trans hd

/-- Behind the second phase all structs are decided. -/
private theorem Completing.signing (h : Completing options decls items [] p) (hlinked : p.store.Linked) :
    Signing options decls [] items p where
  underway := by simpa using h.underway
  items := by simpa using h.items
  fit hhalted :=
    { linked := hlinked
      recorded := fun _ hd => hd
      structs := fun id d he => by
        by_contra hregistered
        have hsome : (p.store.structs.find? d.span).isSome = true := Option.isSome_iff_ne_none.mpr hregistered
        have hmem : .struct d ∈ decls := (h.houses hhalted).structs id d _ he
        have howns : (Decl.struct d).Owns decls := by
          by_contra hother
          exact ((h.underway.resting hhalted).taken _ hmem hother).unnoted hsome
        obtain ⟨i, hi, hdecl⟩ := List.mem_map.mp (h.items ▸ hmem)
        obtain ⟨failed, t, state, hr, ht, hstate⟩ := h.decided hhalted i (by simpa using hi) (hdecl ▸ howns) d hdecl
        obtain rfl : t = id := (hlinked t d _ _ ht hr).symm.trans (hlinked id d _ _ he hr)
        cases he.symm.trans ht
        cases failed
        · obtain ⟨_, hfields⟩ := hstate
          cases hfields
        · obtain ⟨_, hwhy⟩ := hstate
          cases hwhy
      functions := fun fr f v hf hv _ => by
        obtain ⟨g, howns, hspan⟩ := (h.houses hhalted).functions fr f v hf hv
        exact .inl (hspan ▸ h.waiting hhalted howns)
      registered := fun key hkey => by
        obtain ⟨g, howns, rfl⟩ := (h.houses hhalted).registered key hkey
        exact .inl (h.waiting hhalted howns) }

/-- A problem with the type of a function lies in the function, or was on record before. -/
private theorem Resting.tells_signatures {todo : List Decl} {f : FunctionDecl} {P : Span → Prop} {pending : Span → Prop}
    (hparsed : Parsed decls) (h : Resting decls todo s) (hf : (Decl.function f).Owns decls) (hlies : f.header.Lies P)
    (hfit : s.Fit (· ∈ s.recorded) pending) :
    Phase.signatures.Tells options (.function f) s
      (fun s' => s.GrowsTo s' ∧ s'.Fit (· ∈ s.recorded) fun k => pending k ∧ k ≠ f.header.span)
      fun why s' => s.GrowsTo s' ∧ (why ∈ s.recorded ∨ P why.span) ∧
        s'.Fit (fun d => d ∈ s.recorded ∨ d = why) fun k => pending k ∧ k ≠ f.header.span := by
  have htriple : Triple (·.Fit (· ∈ s.recorded) pending) (Phase.resolveFunction FrameId.module f)
      (fun _ s' => s'.Fit (· ∈ s.recorded) fun k => pending k ∧ k ≠ f.header.span) _ :=
    triple_signature (P := P) hlies.types
  have htells : Phase.signatures.Tells options (.function f) s _ _ :=
    Phase.tells_runOn rfl ((triple_discard htriple).start hfit)
  refine ((studies_signatures options hparsed _ _ _ h hf).tells htells).mono ?_ ?_
  · exact fun s' ⟨⟨_, _, _, hg, _⟩, hs'⟩ => ⟨hg.toGrowsTo, hs'⟩
  · exact fun why s' ⟨⟨_, _, _, hg, _⟩, hs'⟩ => ⟨hg.toGrowsTo, hs'⟩

/-- What is known about a store behind a refusal, and what was known before. -/
private theorem Store.Fit.records {s' : Store} {new : Diagnostic → Prop} {pending : Span → Prop}
    (h : s'.Fit (fun d => d ∈ s.recorded ∨ new d) pending) (hg : s.GrowsTo s') : s.Records new s' where
  linked := h.linked
  failed _ _ _ he := hg.failed he
  recorded := h.recorded

/-- A function that has not failed has not failed as a part of others. -/
theorem function_open {f : FunctionDecl} (hf : decls[done.length]? = some (.function f))
    (hfailed : item.failed = false) :
    ¬Failed (done ++ item :: rest) done.length ∧ ¬s.Breaks decls done.length := by
  refine ⟨not_failed_middle hfailed, ?_⟩
  rintro ⟨d, id, why, hd, -⟩
  cases hf.symm.trans hd

private theorem Signing.separates (hparsed : Parsed decls) (hplaced : Placed owner decls)
    (h : Signing options decls done (item :: rest) p) (hlinked : p.store.Linked) (hhalted : p.halted = false)
    (hfailed : item.failed = false) :
    Phase.signatures.Separates options owner decls (done ++ item :: rest) done.length item.decl p.store := by
  have howns := h.underway.owns hhalted item (by simp) hfailed
  have hlies := hplaced _ _ (getElem?_middle h.items)
  cases hdecl : item.decl with
  | struct d => exact .refl hlinked
  | function f =>
    rw [hdecl] at howns hlies
    refine ((h.underway.resting hhalted).tells_signatures hparsed howns hlies.header (h.fit hhalted)).mono ?_ ?_
    · exact fun s' ⟨hg, hs'⟩ => (hs'.mono (fun _ => .inl) fun _ => id).records hg
    · rintro why s' ⟨hg, hwhy, hs'⟩
      refine ⟨hs'.records hg, hwhy.imp_right fun howner => ?_⟩
      rw [howner]
      exact ⟨function_open (hdecl ▸ getElem?_middle h.items) hfailed, .inl rfl⟩

/-- A function is refused with a problem that is on record, or with one of its own. -/
private theorem Signing.forgets (hplaced : Placed owner decls) (h : Signing options decls done (item :: rest) p)
    (hreported : Reported options owner decls log (done ++ item :: rest) p) (hhalted : p.halted = false)
    (hfailed : item.failed = false) : Phase.signatures.Forgets options item.decl p.store := by
  intro other hother
  have hlies := hplaced _ _ (getElem?_middle h.items)
  cases hdecl : item.decl with
  | struct d => exact trivial
  | function f =>
    rw [hdecl] at hlies
    have htriple : Triple (·.Fit (· ∈ (p.store.recast other).recorded) (Waiting (item :: rest)))
        (Phase.resolveFunction FrameId.module f) _ _ :=
      triple_signature (P := (owner · = done.length)) hlies.header.types
    have htells : Phase.signatures.Tells options (.function f) (p.store.recast other) _ _ :=
      Phase.tells_runOn rfl ((triple_discard htriple).start (h.fit hhalted).mapProblems)
    refine htells.mono (fun _ _ => trivial) fun why s' hs' hold => ?_
    obtain ⟨hwhy | howner, -⟩ := hs'
    · exact Store.not_mem_recorded_recast hother hold hwhy
    · obtain ⟨hopen, hwhole⟩ := function_open (hdecl ▸ getElem?_middle h.items) hfailed
      exact (hreported.accounted hold).elim (howner ▸ hopen) (howner ▸ hwhole)

private theorem Signing.step (hparsed : Parsed decls) (hplaced : Placed owner decls)
    (h : Signing options decls done (item :: rest) p) :
    ∃ item' p', Phase.signatures.step options item p = .ok (item', p') ∧
      Signing options decls (done ++ [item']) rest p' := by
  obtain ⟨item', p', hstep, hdecl, h', -, -⟩ := (studies_signatures options hparsed).step h.underway
  have hitems : (done ++ [item'] ++ rest).map (·.decl) = decls := by simpa [hdecl] using h.items
  refine ⟨item', p', hstep, h', hitems, fun hhalted' => ?_⟩
  cases hhalted : p.halted with
  | true =>
    rw [Phase.step_skip (.inl hhalted)] at hstep
    cases hstep
    rw [hhalted] at hhalted'
    cases hhalted'
  | false =>
    have hfit := h.fit hhalted
    -- what is waited for are the later functions, and this one if it is tried
    have hwaiting : ∀ k, Waiting (item :: rest) k → Waiting rest k ∨
        item.failed = false ∧ ∃ f, item.decl = .function f ∧ f.header.span = k := by
      rintro k ⟨i, hi, hwaits⟩
      rcases List.mem_cons.mp hi with rfl | hi
      · exact .inr hwaits
      · exact .inl ⟨i, hi, hwaits⟩
    cases hfailed : item.failed with
    | true =>
      rw [Phase.step_skip (.inr hfailed)] at hstep
      cases hstep
      refine hfit.mono (fun _ => id) fun k hk => (hwaiting k hk).resolve_right fun hself => ?_
      rw [hfailed] at hself
      cases hself.1
    | false =>
      have howns := h.underway.owns hhalted item (by simp) hfailed
      have hlies := hplaced _ _ (getElem?_middle h.items)
      have htells : Phase.signatures.Tells options item.decl p.store (fun s' => s'.Fit (· ∈ s'.recorded) (Waiting rest))
          fun _ s' => s'.Fit (· ∈ s'.recorded) (Waiting rest) := by
        cases hdecl : item.decl with
        | struct d =>
          refine hfit.mono (fun _ => id) fun k hk => (hwaiting k hk).resolve_right fun ⟨_, f, hf, _⟩ => ?_
          cases hdecl.symm.trans hf
        | function f =>
          rw [hdecl] at howns hlies
          have hrest : ∀ k, Waiting (item :: rest) k ∧ k ≠ f.header.span → Waiting rest k := fun k ⟨hk, hne⟩ =>
            (hwaiting k hk).resolve_right fun ⟨_, g, hg, hspan⟩ => by
              cases hdecl.symm.trans hg
              exact hne hspan.symm
          refine ((h.underway.resting hhalted).tells_signatures hparsed howns hlies.header hfit).mono ?_ ?_
          · exact fun s' ⟨_, hs'⟩ => hs'.self.mono (fun _ => id) hrest
          · exact fun _ s' ⟨_, _, hs'⟩ => hs'.self.mono (fun _ => id) hrest
      exact (htells.step hhalted hfailed hstep).elim (·.2) fun h => h.2.choose_spec

/-! ### Bodies of functions -/

/-- What holds while bodies are checked. -/
structure Inspecting (options : Options) (decls : List Decl) (done rest : List Item) (p : Progress) : Prop where
  checked : Checked options decls done rest p
  behind : decls.drop done.length = rest.map (·.decl)
  fit : p.halted = false → p.store.Fit (· ∈ p.store.recorded) fun _ => False

private theorem Signing.inspecting (h : Signing options decls items [] p) : Inspecting options decls [] items p where
  checked := ⟨by simpa using h.underway, by simp⟩
  behind := by simpa using h.items.symm
  fit hhalted := (h.fit hhalted).mono (fun _ => id) fun _ ⟨_, hi, _⟩ => by cases hi

/-- A problem in the body of a function lies in the function, or was on record before. -/
private theorem tells_bodies {f : FunctionDecl} {P : Span → Prop}
    (hfit : s.Fit (· ∈ s.recorded) fun _ => False) (hlies : f.Lies P P)
    (huntyped : f.info.type = none) :
    Phase.bodies.Tells options (.function f) s (fun s' => s'.Fit (· ∈ s.recorded) fun _ => False)
      fun why s' => s'.Caught (· ∈ s.recorded) P why := by
  have hcheck := f.check_fit options FrameId.module hfit hlies huntyped
  unfold Phase.Tells
  simp only [Phase.apply, Phase.checkBody]
  unfold CheckState.Fit at hcheck
  split at hcheck <;> rename_i hstop <;> rw [hstop]
  · exact hcheck
  · exact hcheck
  · trivial

/-- The declaration that comes next. -/
theorem Inspecting.number (h : Inspecting options decls done (item :: rest) p) :
    decls[done.length]? = some item.decl := by
  have hhead := congrArg List.head? h.behind
  rwa [List.head?_drop, List.map_cons, List.head?_cons] at hhead

theorem Inspecting.tells (hparsed : Parsed decls) (hplaced : Placed owner decls)
    (h : Inspecting options decls done (item :: rest) p) (hhalted : p.halted = false) (hfailed : item.failed = false)
    {f : FunctionDecl} (hf : item.decl = .function f) :
    Phase.bodies.Tells options (.function f) p.store
      (fun s' => p.store.GrowsTo s' ∧ s'.Fit (· ∈ p.store.recorded) fun _ => False)
      fun why s' => p.store.GrowsTo s' ∧ s'.Caught (· ∈ p.store.recorded) (owner · = done.length) why := by
  have hnumber : decls[done.length]? = some (.function f) := hf ▸ h.number
  obtain ⟨before, hdecls⟩ := h.checked.1.last
  have howns := h.checked.1.owns hhalted item List.mem_cons_self hfailed
  have hleads := leads_bodies (d := item.decl) options hparsed hdecls (h.checked.1.resting hhalted) howns
  rw [hf] at hleads howns
  have huntyped : f.info.type = none := by rw [hparsed.untyped f howns.mem]
  refine (hleads.tells (tells_bodies (h.fit hhalted) (hplaced _ _ hnumber) huntyped)).mono ?_ ?_
  · exact fun s' ⟨⟨_, _, hg, _⟩, hs'⟩ => ⟨hg, hs'⟩
  · exact fun why s' ⟨⟨_, _, hg, _⟩, hs'⟩ => ⟨hg, hs'⟩

theorem Inspecting.separates (hparsed : Parsed decls) (hplaced : Placed owner decls)
    (h : Inspecting options decls done (item :: rest) p) (hlinked : p.store.Linked) (hhalted : p.halted = false)
    (hfailed : item.failed = false) :
    Phase.bodies.Separates options owner decls (done ++ item :: rest) done.length item.decl p.store := by
  cases hdecl : item.decl with
  | struct d => exact .refl hlinked
  | function f =>
    have hnumber : decls[done.length]? = some (.function f) := hdecl ▸ h.number
    refine (h.tells hparsed hplaced hhalted hfailed hdecl).mono ?_ ?_
    · exact fun s' ⟨hg, hs'⟩ => (hs'.mono (fun _ => .inl) fun _ => id).records hg
    · rintro why s' ⟨hg, hwhy, hs'⟩
      refine ⟨hs'.records hg, hwhy.imp_right fun howner => ?_⟩
      rw [howner]
      exact ⟨function_open hnumber hfailed, .inl rfl⟩

theorem Inspecting.forgets (hparsed : Parsed decls) (hplaced : Placed owner decls)
    (h : Inspecting options decls done (item :: rest) p)
    (hreported : Reported options owner decls log (done ++ item :: rest) p) (hhalted : p.halted = false)
    (hfailed : item.failed = false) : Phase.bodies.Forgets options item.decl p.store := by
  intro other hother
  cases hdecl : item.decl with
  | struct d => exact trivial
  | function f =>
    have hnumber := hdecl ▸ h.number
    have howns := h.checked.1.owns hhalted item List.mem_cons_self hfailed
    have huntyped : f.info.type = none := by rw [hparsed.untyped f (hdecl ▸ howns).mem]
    have htells : Phase.bodies.Tells options (.function f) (p.store.recast other) _ _ :=
      tells_bodies (h.fit hhalted).mapProblems (hplaced _ _ hnumber) huntyped
    refine htells.mono (fun _ _ => trivial) fun why s' hs' hold => ?_
    obtain ⟨hwhy | howner, -⟩ := hs'
    · exact Store.not_mem_recorded_recast hother hold hwhy
    · obtain ⟨hopen, hwhole⟩ := function_open hnumber hfailed
      exact (hreported.accounted hold).elim (howner ▸ hopen) (howner ▸ hwhole)

theorem Inspecting.step (hparsed : Parsed decls) (hplaced : Placed owner decls)
    (h : Inspecting options decls done (item :: rest) p) :
    ∃ item' p', Phase.bodies.step options item p = .ok (item', p') ∧
      Inspecting options decls (done ++ [item']) rest p' := by
  obtain ⟨item', p', hstep, h', -⟩ := h.checked.step hparsed
  have hbehind : decls.drop (done ++ [item']).length = rest.map (·.decl) := by
    rw [List.length_append, List.length_singleton, ← List.drop_drop, h.behind]
    rfl
  refine ⟨item', p', hstep, h', hbehind, fun hhalted' => ?_⟩
  by_cases hskip : p.halted = true ∨ item.failed = true
  · rw [Phase.step_skip hskip] at hstep
    cases hstep
    exact h.fit hhalted'
  obtain ⟨hhalted, hfailed⟩ : p.halted = false ∧ item.failed = false := by simpa using hskip
  have htells : Phase.bodies.Tells options item.decl p.store (fun s' => s'.Fit (· ∈ s'.recorded) fun _ => False)
      fun _ s' => s'.Fit (· ∈ s'.recorded) fun _ => False := by
    cases hdecl : item.decl with
    | struct d => exact h.fit hhalted
    | function f =>
      refine (h.tells hparsed hplaced hhalted hfailed hdecl).mono ?_ ?_
      · exact fun s' ⟨_, hs'⟩ => hs'.self
      · exact fun _ s' ⟨_, _, hs'⟩ => hs'.self
  exact (htells.step hhalted hfailed hstep).elim (·.2) fun h => h.2.choose_spec

/-! ### Whole compilations -/

/-- Before the first phase nothing is reported. -/
private theorem reported_initial : Reported options owner decls [] (decls.map ({ decl := · })) { store := {} } where
  linked id d state r he := by
    rcases registered_initial.entries id _ he with ⟨name, hname⟩ | ⟨e, hmem, -⟩
    · cases hname
    · cases hmem
  apart := List.nodup_nil
  closed := by simp
  recorded d hd := absurd hd (registered_initial.not_recorded d)
  errors := rfl
  listed := by simp
  failed i := by simp [Failed]
  once := List.nodup_nil
  told := by simp

/-- The phases before bodies are checked. -/
theorem preparation_reports (options : Options) (hparsed : Parsed decls) (hplaced : Placed owner decls) :
    ∃ items p, Phase.runAll options Phase.preparation (decls.map ({ decl := · })) { store := {} } = .ok (items, p) ∧
      items.length = decls.length ∧ Inspecting options decls [] items p ∧
      Reported options owner decls
          (Phase.refusalsAll options Phase.preparation (decls.map ({ decl := · })) { store := {} }) items p := by
  obtain ⟨items₁, p₁, hrun₁, hK₁, hlength₁, h₁⟩ := Phase.run_reports (Naming options decls)
    (fun _ _ _ _ _ hK h => ⟨hK.step hparsed, fun hhalted hfailed =>
      ⟨hK.toRegistering.separates hparsed hplaced h.linked hhalted hfailed, hK.toRegistering.forgets hhalted⟩⟩)
    ⟨.start options decls, by simp⟩ reported_initial
  obtain ⟨items₂, p₂, hrun₂, hK₂, hlength₂, h₂⟩ := Phase.run_reports (Completing options decls)
    (fun _ _ _ _ _ hK h => ⟨hK.step h.linked, fun hhalted hfailed =>
      ⟨hK.separates hplaced h.linked hhalted hfailed, hK.forgets hplaced h hhalted hfailed⟩⟩)
        (hK₁.completing hparsed) h₁
  obtain ⟨items₃, p₃, hrun₃, hK₃, hlength₃, h₃⟩ := Phase.run_reports (Signing options decls)
    (fun _ _ _ _ _ hK h => ⟨hK.step hparsed hplaced, fun hhalted hfailed =>
      ⟨hK.separates hparsed hplaced h.linked hhalted hfailed, hK.forgets hplaced h hhalted hfailed⟩⟩)
    (hK₂.signing h₂.linked) h₂
  refine ⟨items₃, p₃, ?_, ?_, hK₃.inspecting, ?_⟩
  · simp only [Phase.preparation, Phase.runAll, hrun₁, ok_bind, hrun₂, hrun₃]
  · rw [hlength₃, hlength₂, hlength₁, List.length_map]
  · simpa only [Phase.preparation, Phase.refusalsAll, hrun₁, hrun₂, hrun₃, List.append_nil, List.nil_append,
      List.append_assoc] using h₃

/-- The phases one after the other are those before bodies are checked, and the last one. -/
theorem runAll_of_preparation {items' : List Item}
    (hprepared : Phase.runAll options Phase.preparation (decls.map ({ decl := · })) { store := {} } = .ok (items, p))
    (hbodies : Phase.bodies.run options items p = .ok (items', q)) :
    Phase.runAll options Phase.all (decls.map ({ decl := · })) { store := {} } = .ok (items', q) ∧
      moduleRefusals options decls =
        Phase.refusalsAll options Phase.preparation (decls.map ({ decl := · })) { store := {} } ++
          Phase.bodies.refusals options 0 items p := by
  simp only [moduleRefusals, Phase.preparation, Phase.all, Phase.runAll, Phase.refusalsAll] at hprepared ⊢
  cases hrun₁ : Phase.registration.run options (decls.map ({ decl := · })) { store := {} } with
  | error f =>
    rw [hrun₁] at hprepared
    cases hprepared
  | ok r₁ =>
    simp only [hrun₁, ok_bind] at hprepared ⊢
    cases hrun₂ : Phase.structs.run options r₁.1 r₁.2 with
    | error f =>
      rw [hrun₂] at hprepared
      cases hprepared
    | ok r₂ =>
      simp only [hrun₂, ok_bind] at hprepared ⊢
      cases hrun₃ : Phase.signatures.run options r₂.1 r₂.2 with
      | error f =>
        rw [hrun₃] at hprepared
        cases hprepared
      | ok r₃ =>
        simp only [hrun₃, ok_bind] at hprepared ⊢
        cases hprepared
        simp only [hbodies, ok_bind, List.append_nil, List.append_assoc, and_self]

/-- All phases. -/
theorem runAll_reports (options : Options) (hparsed : Parsed decls) (hplaced : Placed owner decls) :
    ∃ items p, Phase.runAll options Phase.all (decls.map ({ decl := · })) { store := {} } = .ok (items, p) ∧
      items.length = decls.length ∧ Reported options owner decls (moduleRefusals options decls) items p := by
  obtain ⟨items₃, p₃, hrun₃, hlength₃, hK₃, h₃⟩ := preparation_reports options hparsed hplaced
  obtain ⟨items₄, p₄, hrun₄, -, hlength₄, h₄⟩ := Phase.run_reports (Inspecting options decls)
    (fun _ _ _ _ _ hK h => ⟨hK.step hparsed hplaced, fun hhalted hfailed =>
      ⟨hK.separates hparsed hplaced h.linked hhalted hfailed, hK.forgets hparsed hplaced h hhalted hfailed⟩⟩) hK₃ h₃
  obtain ⟨hall, hlog⟩ := runAll_of_preparation hrun₃ hrun₄
  exact ⟨items₄, p₄, hall, hlength₄.trans hlength₃, hlog ▸ h₄⟩

/-- There are no more problems than declarations. -/
private theorem Reported.length_le (h : Reported options owner decls log items p)
    (hlength : items.length = decls.length) :
    p.errors.length ≤ decls.length := by
  have hsub : (p.errors.map fun d => owner d.span) ⊆ List.range decls.length := by
    intro i hi
    obtain ⟨d, hd, rfl⟩ := List.mem_map.mp hi
    rw [List.mem_range]
    rcases h.closed d hd with ⟨item, hitem, -⟩ | ⟨e, id, why, he, -⟩
    · exact hlength ▸ (List.getElem?_eq_some_iff.mp hitem).1
    · exact (List.getElem?_eq_some_iff.mp he).1
  have hle := (List.Nodup.subperm h.apart hsub).length_le
  rwa [List.length_map, List.length_range] at hle

/-- Nothing is reported just if nothing has failed. -/
theorem Reported.errors_eq_nil_iff (h : Reported options owner decls log items p) :
    p.errors = [] ↔ ∀ item ∈ items, item.failed = false := by
  constructor
  · intro hnone item hitem
    by_contra hfailed
    obtain ⟨i, hi⟩ := List.mem_iff_getElem?.mp hitem
    obtain ⟨r, hr, -⟩ := (h.failed i).mp ⟨item, hi, by simpa using hfailed⟩
    have hlisted := h.listed r hr
    rw [hnone] at hlisted
    cases hlisted
  · intro hfine
    have hlog : log = [] := List.eq_nil_iff_forall_not_mem.mpr fun r hr => by
      obtain ⟨item, hitem, hfailed⟩ := (h.failed r.index).mpr ⟨r, hr, rfl⟩
      rw [hfine item (List.mem_of_getElem? hitem)] at hfailed
      cases hfailed
    rw [h.errors, hlog]
    rfl

/--
Every problem is reported once.  In every compilation of a module
* the problems that are reported are those of the refusals that were not on record before, in their order;
* a problem was on record before exactly if the refusal hands it on from a record, and it was not
  exactly if it is made anew;
* they lie at different spans, so no two have the same kind, span and message, and there are no more of them than
  declarations;
* a declaration fails exactly if a phase refuses it, which happens at most once, with a problem that is reported;
* the file has no problems exactly if no declaration fails.
-/
theorem SourceFile.compile_reports (file : SourceFile) (options : Options) (decls : List Decl)
    (hdecls : file.declarations = .ok decls) :
    ∃ items p u, Phase.runAll options Phase.all (decls.map ({ decl := · })) { store := {} } = .ok (items, p) ∧
      file.compile options = .ok u ∧ u.module = some ⟨file, items.map (·.decl), p.store⟩ ∧
      u.errors = ((moduleRefusals options decls).filter fun r => !r.known).map (·.problem) ∧
      (u.errors.map (·.span)).Nodup ∧ (u.errors.map fun d => (d.kind, d.span, d.message)).Nodup ∧
      u.errors.length ≤ decls.length ∧
      (∀ i, Failed items i ↔ ∃ r ∈ moduleRefusals options decls, r.index = i) ∧
      ((moduleRefusals options decls).map (·.index)).Nodup ∧
      (∀ r ∈ moduleRefusals options decls, r.problem ∈ u.errors) ∧
      (∀ r ∈ moduleRefusals options decls,
        (r.phase.apply options r.decl r.store).2.result = .error (.refused r.problem) ∧
          (r.known = true ↔ r.HandedOn options) ∧ (r.known = false ↔ r.MadeAnew options)) ∧
      (u.ok = true ↔ ∀ item ∈ items, item.failed = false) := by
  obtain ⟨owner, hplaced⟩ := file.placed hdecls
  obtain ⟨items, p, hrun, hlength, h⟩ := runAll_reports options (file.parsed_of_declarations hdecls) hplaced
  have hcompile : Module.compile options { file, decls } =
      .ok ({ file, decls := items.map (·.decl), store := p.store }, p.errors) := by
    unfold Module.compile
    rw [hrun]
    rfl
  have hspans : (p.errors.map (·.span)).Nodup := by
    have howners : ((p.errors.map (·.span)).map owner).Nodup := by
      rw [List.map_map]
      exact h.apart
    exact howners.of_map owner
  have htexts : ((p.errors.map fun d => (d.kind, d.span, d.message)).map (·.2.1)).Nodup := by
    rw [List.map_map]
    exact hspans
  refine ⟨items, p, _, hrun, file.compile_of_module hdecls hcompile, rfl, h.errors, hspans, htexts.of_map _,
    h.length_le hlength, h.failed, h.once, h.listed, fun r hr => ⟨(h.told r hr).refused, (h.told r hr).known_iff⟩, ?_⟩
  rw [CompiledUnit.ok, List.isEmpty_iff]
  exact h.errors_eq_nil_iff

/-- A struct that fails for the sake of another one, which fails with the same problem, and a function with its own. -/
theorem SourceFile.compile_reports_shared : ∃ decls items p u,
    SourceFile.declarations ⟨"shared", "struct A{b:B} struct B{c:C} fn f(){g();}".toList⟩ = .ok decls ∧
      (moduleRefusals {} decls).map (fun r => (r.phase, r.index, r.known)) =
        [(.structs, 0, false), (.structs, 1, true), (.bodies, 2, false)] ∧
      Phase.runAll {} Phase.all (decls.map ({ decl := · })) { store := {} } = .ok (items, p) ∧
      SourceFile.compile {} ⟨"shared", "struct A{b:B} struct B{c:C} fn f(){g();}".toList⟩ = .ok u ∧
      u.errors = ((moduleRefusals {} decls).filter fun r => !r.known).map (·.problem) ∧
      (u.errors.map fun d => (d.kind, d.span, d.message)).Nodup ∧
      (∀ i, Failed items i ↔ ∃ r ∈ moduleRefusals {} decls, r.index = i) ∧
      (∀ r ∈ moduleRefusals {} decls, r.problem ∈ u.errors) ∧
      (∃ r ∈ moduleRefusals {} decls, r.index = 0 ∧ r.MadeAnew {}) ∧
      (∃ r ∈ moduleRefusals {} decls, r.index = 1 ∧ r.HandedOn {}) ∧
      (u.ok = true ↔ ∀ item ∈ items, item.failed = false) := by
  have hrun : (SourceFile.declarations
      ⟨"shared", "struct A{b:B} struct B{c:C} fn f(){g();}".toList⟩).toOption.map
        (fun decls => (moduleRefusals {} decls).map fun r => (r.phase, r.index, r.known)) =
      some [(.structs, 0, false), (.structs, 1, true), (.bodies, 2, false)] := by
    decide +kernel
  cases hdecls : SourceFile.declarations
      ⟨"shared", "struct A{b:B} struct B{c:C} fn f(){g();}".toList⟩ with
  | error why =>
    rw [hdecls] at hrun
    cases hrun
  | ok decls =>
    rw [hdecls] at hrun
    have hlog := Option.some.inj hrun
    obtain ⟨items, p, u, hall, hcompile, -, herrors, -, htexts, -, hfailed, -, hlisted, htold, hok⟩ :=
      SourceFile.compile_reports _ {} decls hdecls
    have hmem : ∀ x ∈ [(Phase.structs, 0, false), (Phase.structs, 1, true), (Phase.bodies, 2, false)],
        ∃ r ∈ moduleRefusals {} decls, r.index = x.2.1 ∧ r.known = x.2.2 := fun x hx => by
      obtain ⟨r, hr, rfl⟩ := List.mem_map.mp (hlog.symm ▸ hx : x ∈ (moduleRefusals {} decls).map _)
      exact ⟨r, hr, rfl, rfl⟩
    obtain ⟨a, ha, hfirst, hnew⟩ := hmem _ (.head _)
    obtain ⟨b, hb, hsecond, hold⟩ := hmem _ (.tail _ (.head _))
    exact ⟨decls, items, p, u, rfl, hlog, hall, hcompile, herrors, htexts, hfailed, hlisted,
      ⟨a, ha, hfirst, (htold a ha).2.2.mp hnew⟩, ⟨b, hb, hsecond, (htold b hb).2.1.mp hold⟩, hok⟩

end

end RainCheck

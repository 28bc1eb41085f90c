import RainCheck.Proofs.Isolation
import RainCheck.Proofs.TermMatching

/-!
# The order of declarations

Two modules with the same declarations in different orders are compiled to the same
(`SourceFile.compile_reordered`), if no name is taken twice.
* (names) Each name is that of declarations that match, so the stores before bodies are checked differ by numbers.
* (bodies) Each body is checked on stores that spare those, so its number in the module is of no account.
-/

namespace RainCheck

open RainCheck.Action

/-! ### Lists in different orders -/

/-- Lists that hold related members, in whatever order. -/
def Reordered {α β : Type} (R : α → β → Prop) (l : List α) (l' : List β) : Prop :=
  ∃ l₁, List.Forall₂ R l l₁ ∧ l₁.Perm l'

section

variable {α β γ δ κ : Type} {R : α → β → Prop} {S : γ → δ → Prop} {l : List α} {l' : List β}

private theorem Reordered.map (h : Reordered R l l') {f : α → γ} {g : β → δ} (hRS : ∀ a b, R a b → S (f a) (g b)) :
    Reordered S (l.map f) (l'.map g) := by
  obtain ⟨l₁, hrel, hperm⟩ := h
  exact ⟨l₁.map g, List.rel_map (fun _ _ hab => hRS _ _ hab) hrel, hperm.map g⟩

/-- The keys of related members are the same up to their order. -/
private theorem Reordered.perm_keys (h : Reordered R l l') {key : α → κ} {key' : β → κ}
    (hkey : ∀ a b, R a b → key' b = key a) :
    (l.map key).Perm (l'.map key') := by
  obtain ⟨l₁, hrel, hperm⟩ := h.map (S := Eq) fun a b hab => (hkey a b hab).symm
  rw [List.forall₂_eq_eq_eq] at hrel
  exact hrel ▸ hperm

/-- All members satisfy a test just if all related ones do. -/
private theorem Reordered.all_eq (h : Reordered R l l') {p : α → Bool} {p' : β → Bool}
    (hp : ∀ a b, R a b → p' b = p a) :
    l'.all p' = l.all p := by
  obtain ⟨l₁, hrel, hperm⟩ := h
  rw [← hperm.all_eq, all_rel hp hrel]

/-- Lists with the same keys, of which members with the same key are related. -/
private theorem reordered_of_keys (key : α → κ) (key' : β → κ) (hperm : (l.map key).Perm (l'.map key'))
    (hR : ∀ a ∈ l, ∀ b ∈ l', key' b = key a → R a b) : Reordered R l l' := by
  have hkeys : List.Forall₂ (fun k b => key' b = k) (l'.map key') l' :=
    List.forall₂_map_left_iff.mpr (List.forall₂_same.mpr fun _ _ => rfl)
  obtain ⟨l₁, hrel, hperm'⟩ := List.perm_comp_forall₂ hperm hkeys
  exact ⟨l₁, forall₂_of_mem (List.forall₂_map_left_iff.mp hrel) fun a ha b hb =>
    hR a ha b (hperm'.mem_iff.mp hb), hperm'⟩

end

section

variable {R : Decl → Decl → Prop} {decls decls' : List Decl} (h : Reordered R decls decls')
  (hname : ∀ d d', R d d' → d'.name = d.name)

include h hname

/-- In both orders no name is taken twice. -/
private theorem Reordered.distinct (hdistinct : (decls.map Decl.name).Nodup) : (decls'.map Decl.name).Nodup :=
  (h.perm_keys hname).nodup_iff.mp hdistinct

/-- If no name is taken twice, a name is that of related declarations. -/
private theorem Reordered.namesAlike (hdistinct : (decls.map Decl.name).Nodup) : NamesAlike R decls decls' := by
  intro name
  obtain ⟨l, hrel, hperm⟩ := id h
  have hfind : l.find? (·.name = name) = decls'.find? (·.name = name) := by
    cases hd : l.find? (·.name = name) with
    | none =>
      refine (List.find?_eq_none.mpr fun d hd' => ?_).symm
      exact List.find?_eq_none.mp hd d (hperm.mem_iff.mpr hd')
    | some d =>
      obtain rfl : d.name = name := by simpa using List.find?_some hd
      exact (Decl.owns_of_distinct (h.distinct hname hdistinct) (hperm.mem_iff.mp (List.mem_of_find?_eq_some hd))).symm
  rw [← hfind]
  exact rel_find? (fun d d' hd => by rw [hname d d' hd]) hrel

end

/-! ### Bodies with other numbers -/

section

variable {m : Matching} {place place' : Span → Nat} {i i' : Nat} {a a' : Span}

/-- Spans in the heads of declarations, or in the bodies with given numbers. -/
def AtBodies (place place' : Span → Nat) (i i' : Nat) (a a' : Span) : Prop :=
  place a % 2 = 0 ∧ place' a' % 2 = 0 ∨ place a = 2 * i + 1 ∧ place' a' = 2 * i' + 1

/-- No other body has such a span. -/
private theorem AtBodies.apart (h : AtBodies place place' i i' a a') :
    (∀ j, j ≠ i → place a ≠ 2 * j + 1) ∧ ∀ j, j ≠ i' → place' a' ≠ 2 * j + 1 := by
  unfold AtBodies at h
  exact ⟨fun j hj => by omega, fun j hj => by omega⟩

/-- Problems are not told apart. -/
def Matching.anyProblem (m : Matching) : Matching := { m with problem := fun _ _ => True }

private theorem Decl.Matches.name {d d' : Decl} (h : d.Matches m d') : d'.name = d.name := by
  cases h with
  | struct h => exact h.name
  | function h => exact h.header.name

end

/--
What is made of two modules in which names are those of declarations that match.
* (items) The same declarations have failed, and all nodes have types with the same text.
* (structs) Structs with one name have the same fields, whose types have the same text, or have both failed.
* (functions) The types of functions with one name have the same text, or could both not be resolved.
* (locals) So do those of the functions in their bodies.
-/
structure SameOutcome (m : Matching) (decls decls' : List Decl) (items items' : List Item) (s s' : Store) : Prop where
  items : Reordered (Item.Related (Decl.Matches (textMatching m s s'))) items items'
  structs : ∀ d d', .struct d ∈ decls → .struct d' ∈ decls' → d'.name = d.name →
    ∃ t t' state state', s.structs.find? d.span = some ⟨t, FrameId.module⟩ ∧ s.typeAt? t = some (.struct d state) ∧
      s'.structs.find? d'.span = some ⟨t', FrameId.module⟩ ∧ s'.typeAt? t' = some (.struct d' state') ∧
      state.Matches (textMatching m s s') state' ∧ ((∃ fields, state = .resolved fields) ∨ ∃ why, state = .failed why)
  functions : ∀ f f', .function f ∈ decls → .function f' ∈ decls' → f'.header.name = f.header.name →
    (s.function f.header.span).Alike (textMatching m s s') (s'.function f'.header.span)
  locals : ∀ f f', .function f ∈ decls → .function f' ∈ decls' → f'.header.name = f.header.name →
    ∀ g g', .function g ∈ Expr.mentionsBlock f.body →
    .function g' ∈ Expr.mentionsBlock f'.body → m.span g.span g'.span →
      (s.function g.span).Alike (textMatching m s s') (s'.function g'.span)

section

variable {m : Matching} {options : Options} {decls decls' : List Decl} {place place' : Span → Nat}
  {items items' items₁ items₁' : List Item} {p p' q q' : Progress} {store store' : Nat → Store} {i i' : Nat}
  {item item' : Item}

/-- A compilation of a module in which no name is taken twice. -/
structure Passage (options : Options) (decls : List Decl) (place : Span → Nat) (items : List Item) (p : Progress)
    (store : Nat → Store) (items' : List Item) (q : Progress) : Prop
    extends Compiled options decls place items p store items' q where
  parsed : Parsed decls
  located : Located place decls
  concluded : Concluded decls items p.store

private theorem exists_passage (hcontinue : options.continueOnError = true) (hparsed : Parsed decls)
    (hlocated : Located place decls)
    (hdistinct : (decls.map Decl.name).Nodup) :
    ∃ items p store items' q, Passage options decls place items p store items' q := by
  obtain ⟨items, p, store, items', q, hc⟩ := exists_compiled hcontinue hparsed hlocated
  have hconcluded := preparation_concludes hcontinue hparsed hdistinct hc.ready hc.prepared
  exact ⟨items, p, store, items', q, hc, hparsed, hlocated, hconcluded⟩

/-- There are no problems just if no declaration has failed. -/
private theorem Passage.errors_eq_nil_iff (h : Passage options decls place items p store items₁ q) :
    q.errors = [] ↔ items₁.all (!·.failed) = true := by
  obtain ⟨items₂, q₂, hrun, -, hreported⟩ := runAll_reports options h.parsed h.located.placed
  cases h.run.symm.trans hrun
  simpa using hreported.errors_eq_nil_iff

/-- The compiled module. -/
private theorem Passage.compile (h : Passage options decls place items p store items₁ q) (file : SourceFile) :
    Module.compile options { file, decls } =
      .ok ({ file, decls := items₁.map (·.decl), store := q.store }, q.errors) := by
  unfold Module.compile
  rw [h.run]
  rfl

private theorem Passage.decl (h : Passage options decls place items p store items₁ q) (hitem : items[i]? = some item) :
    decls[i]? = some item.decl := by
  rw [← h.decls_eq, List.getElem?_map, hitem]
  rfl

/-- A function has a number, which tells where it stands. -/
private theorem Passage.exists_number (h : Passage options decls place items p store items₁ q) {f : FunctionDecl}
    (hf : .function f ∈ decls) : ∃ (i : Nat) (item : Item), items[i]? = some item ∧ item.decl = .function f ∧
      f.Lies (place · = 2 * i) (place · = 2 * i + 1) := by
  obtain ⟨item, hitem, hdecl⟩ := h.concluded.exists_item hf
  obtain ⟨i, hi⟩ := List.mem_iff_getElem?.mp hitem
  exact ⟨i, item, hi, hdecl, h.located i (.function f) (hdecl ▸ h.decl hi)⟩

namespace NamesAlike

variable (h : NamesAlike (Decl.Matches m) decls decls') (hm : m.Exact)
  (hc : Passage options decls place items p store items₁ q)
  (hc' : Passage options decls' place' items' p' store' items₁' q')

include h hc hc'

/-- Names are those of declarations whose heads match, also if only what a declaration needs of the
stores is matched. -/
private theorem heads (i i' : Nat) : NamesAlike
    (Decl.HeadMatches (termMatching p.store p'.store fun a a' => m.span a a' ∧ AtBodies place place' i i' a a'))
      decls decls' := by
  refine h.imp fun d hd d' hd' hmatch => ?_
  obtain ⟨j, hj⟩ := List.mem_iff_getElem?.mp hd
  obtain ⟨j', hj'⟩ := List.mem_iff_getElem?.mp hd'
  refine hmatch.head.narrow (fun a a' ha hplace hplace' => ⟨ha, .inl ?_⟩) (hc.located j d hj) (hc'.located j' d' hj') ?_
  · omega
  · exact fun f hf => hc.parsed.params f (hf ▸ hd)

include hm

/-- The stores before bodies are checked differ by numbers, as far as a declaration is concerned. -/
private theorem renumbered (i i' : Nat) : p.store.Renumbered
    (termMatching p.store p'.store fun a a' => m.span a a' ∧ AtBodies place place' i i' a a') p'.store :=
  hc.concluded.renumbered hc'.concluded (h.heads hc hc' i i') fun ha hb => hm.span ha.1 hb.1

omit h hm hc hc' in
/-- Types with the same text match, wherever they are used. -/
private theorem finer (s s' : Store) :
    (textMatching (termMatching p.store p'.store fun a a' => m.span a a' ∧ AtBodies place place' i i' a a') s s').Finer
      (textMatching m.anyProblem s s') where
  span _ _ ha := ha.1
  type _ _ ht := ht
  frame _ _ hfr := hfr
  problem _ _ _ := trivial

variable (hitem : items[i]? = some item) (hitem' : items'[i']? = some item') (hname : item'.decl.name = item.decl.name)

include hitem hitem' hname

omit hm in
/-- Declarations with one name match before their bodies are checked. -/
private theorem prepared : item.Related
    (Decl.Matches (termMatching p.store p'.store fun a a' => m.span a a' ∧ AtBodies place place' i i' a a')) item' := by
  have hd := hc.decl hitem
  have hd' := hc'.decl hitem'
  have hmem := List.mem_of_getElem? hd
  refine ⟨?_, hc.concluded.same_failed hc'.concluded (h.heads hc hc' i i') (List.mem_of_getElem? hitem)
    (List.mem_of_getElem? hitem') hname⟩
  have hmatch := h.rel (hc.concluded.owns hmem) (hc'.concluded.owns (List.mem_of_getElem? hd')) hname
  refine hmatch.narrow ?_ ?_ (hc.located i _ hd) (hc'.located i' _ hd') hc.parsed hmem
  · exact fun a a' ha hplace hplace' => ⟨ha, .inl (by omega)⟩
  · exact fun a a' ha hplace hplace' => ⟨ha, .inr ⟨hplace, hplace'⟩⟩

/-- The bodies of functions with one name are treated alike. -/
private theorem bodies : (Phase.bodies.itemAt options item (store i)).Related
    (Decl.Matches (textMatching m.anyProblem q.store q'.store)) (Phase.bodies.itemAt options item' (store' i')) := by
  obtain ⟨hrelated, -⟩ :=
    (hc.inspected i item hitem).related (hc'.inspected i' item' hitem') (h.renumbered hm hc hc' i i')
    (fun _ _ hkey => ⟨fun j hj => hkey.2.apart.1 j (Nat.ne_of_lt hj), fun j hj => hkey.2.apart.2 j (Nat.ne_of_lt hj)⟩)
    (h.prepared hc hc' hitem hitem' hname)
  exact ⟨hrelated.decl.imp (finer _ _), hrelated.failed⟩

/-- The same is known about the functions in declarations with one name. -/
private theorem function_alike {key key' : Span} (hkey : m.span key key') (hat : AtBodies place place' i i' key key') :
    (q.store.function key).Alike (textMatching m.anyProblem q.store q'.store) (q'.store.function key') := by
  have halike :=
    (hc.inspected i item hitem).function_alike (hc'.inspected i' item' hitem') (h.renumbered hm hc hc' i i')
    (fun _ _ hkey => ⟨fun j hj => hkey.2.apart.1 j (Nat.ne_of_lt hj), fun j hj => hkey.2.apart.2 j (Nat.ne_of_lt hj)⟩)
    (h.prepared hc hc' hitem hitem' hname) ⟨hkey, hat⟩ (fun j hj => hat.apart.1 j (Nat.ne_of_gt hj))
    fun j hj => hat.apart.2 j (Nat.ne_of_gt hj)
  exact halike.imp (finer _ _)

omit hitem hitem' hname in
/-- Structs with one name have the same fields, or have both failed. -/
private theorem same_struct {d d' : StructDecl} (hd : .struct d ∈ decls) (hd' : .struct d' ∈ decls')
    (hname : d'.name = d.name) :
    ∃ t t' state state', q.store.structs.find? d.span = some ⟨t, FrameId.module⟩ ∧
      q.store.typeAt? t = some (.struct d state) ∧ q'.store.structs.find? d'.span = some ⟨t', FrameId.module⟩ ∧
      q'.store.typeAt? t' = some (.struct d' state') ∧
      state.Matches (textMatching m.anyProblem q.store q'.store) state' ∧
      ((∃ fields, state = .resolved fields) ∨ ∃ why, state = .failed why) := by
  obtain ⟨t, state, hr, he⟩ := hc.ready.resting.structs d (hc.concluded.owns hd)
  obtain ⟨t', state', hr', he'⟩ := hc'.ready.resting.structs d' (hc'.concluded.owns hd')
  have hstores := h.renumbered hm hc hc' 0 0
  have hdenotes' : p'.store.Denotes t' (.struct d.name) := hname ▸ .struct he' hr'
  obtain ⟨e, e', ht, ht', hmatch, hclosed⟩ := hstores.types ⟨.struct d.name, .struct he hr, hdenotes'⟩
  cases he.symm.trans ht
  cases he'.symm.trans ht'
  have hfiner := hstores.finer (le_refl _) hc.concluded.sound hc.spared.toGrowsTo hc'.spared.toGrowsTo
  refine ⟨t, t', state, state', by rwa [hc.spared.structs], hc.spared.closed ht hclosed, by rwa [hc'.spared.structs],
    hc'.spared.closed ht' (hmatch.closed hclosed), ?_, hclosed d state rfl⟩
  cases hmatch with
  | struct _ hstate => exact (hstate.imp hfiner).imp (finer _ _)

omit hitem hitem' hname in
/-- What is made of two modules is the same, if names are those of declarations that match. -/
private theorem same_outcome (hperm : (decls.map Decl.name).Perm (decls'.map Decl.name)) :
    SameOutcome m.anyProblem decls decls' items₁ items₁' q.store q'.store where
  items := by
    rw [hc.items_eq, hc'.items_eq]
    have hkeys : ∀ {items : List Item} {decls : List Decl}, items.map (·.decl) = decls →
        items.zipIdx.map (fun r => r.1.decl.name) = decls.map Decl.name := by
      rintro items _ rfl
      have hnames := congrArg (List.map fun i : Item => i.decl.name) (List.zipIdx_map_fst 0 items)
      rw [List.map_map] at hnames
      rw [List.map_map]
      exact hnames
    refine Reordered.map (R := fun r r' => _) (reordered_of_keys (fun r : Item × Nat => r.1.decl.name)
      (fun r : Item × Nat => r.1.decl.name) ?_ fun r hr r' hr' hname => ?_) fun r r' hrr' => hrr'
    · rwa [hkeys hc.decls_eq, hkeys hc'.decls_eq]
    · exact h.bodies hm hc hc' (List.mk_mem_zipIdx_iff_getElem?.mp hr) (List.mk_mem_zipIdx_iff_getElem?.mp hr') hname
  structs d d' hd hd' hname := h.same_struct hm hc hc' hd hd' hname
  functions f f' hf hf' hname := by
    obtain ⟨i, item, hitem, hdecl, hlies⟩ := hc.exists_number hf
    obtain ⟨i', item', hitem', hdecl', hlies'⟩ := hc'.exists_number hf'
    have hheader : f.header.Matches m f'.header := by
      cases h.rel (hc.concluded.owns hf) (hc'.concluded.owns hf') hname with
      | function hmatch => exact hmatch.header
    have hplace : place f.header.span = 2 * i := hlies.header.name
    have hplace' : place' f'.header.span = 2 * i' := hlies'.header.name
    exact h.function_alike hm hc hc' hitem hitem' (by rw [hdecl, hdecl']; exact hname) hheader.span (.inl (by omega))
  locals f f' hf hf' hname g g' hg hg' hspan := by
    obtain ⟨i, item, hitem, hdecl, hlies⟩ := hc.exists_number hf
    obtain ⟨i', item', hitem', hdecl', hlies'⟩ := hc'.exists_number hf'
    have hat := And.intro (hlies.body.mentions (.function g) hg) (hlies'.body.mentions (.function g') hg')
    exact h.function_alike hm hc hc' hitem hitem' (by rw [hdecl, hdecl']; exact hname) hspan (.inr hat)

end NamesAlike

end

/-! ### Declarations in another order -/

/-- A list in another order. -/
private theorem reordered_of_perm {decls decls' : List Decl} (h : decls.Perm decls') :
    Reordered (Decl.Matches Matching.same) decls decls' :=
  ⟨decls, List.forall₂_same.mpr fun d _ => .same d, h⟩

/-! ### Declarations of a file -/

section

variable {decls l : List Decl} {place : Span → Nat}

private theorem Parsed.perm (h : Parsed l) (hperm : l.Perm decls) : Parsed decls where
  apart := ((hperm.flatMap_right Decl.mentions).map Mention.start).nodup_iff.mp h.apart
  untyped f hf := h.untyped f (hperm.mem_iff.mpr hf)
  params f hf := h.params f (hperm.mem_iff.mpr hf)
  body f hf := h.body f (hperm.mem_iff.mpr hf)

/-- The number that a declaration of one list has in another one, told by its name. -/
def numberIn (decls l : List Decl) (j : Nat) : Nat := (decls.map Decl.name).idxOf ((l[j]?.map Decl.name).getD "")

private theorem numberIn_eq (hdistinct : (decls.map Decl.name).Nodup) {d : Decl} {i j : Nat} (hj : l[j]? = some d)
    (hi : decls[i]? = some d) : numberIn decls l j = i := by
  have hnames : (decls.map Decl.name)[i]? = some d.name := by rw [List.getElem?_map, hi, Option.map_some]
  obtain ⟨hlt, hname⟩ := List.getElem?_eq_some_iff.mp hnames
  rw [numberIn, hj, Option.map_some, Option.getD_some, ← hname]
  exact hdistinct.idxOf_getElem i hlt

/-- Declarations in another order stand where they did. -/
private theorem Located.perm (h : Located place l) (hperm : l.Perm decls) (hdistinct : (decls.map Decl.name).Nodup) :
    Located (fun a => 2 * numberIn decls l (place a / 2) + place a % 2) decls := by
  intro i d hd
  obtain ⟨j, hj⟩ := List.mem_iff_getElem?.mp (hperm.mem_iff.mpr (List.mem_of_getElem? hd))
  have hnumber := numberIn_eq hdistinct hj hd
  refine (h j d hj).mono (fun a ha => ?_) fun a ha => ?_
  · dsimp only
    rw [show place a / 2 = j by omega, hnumber]
    omega
  · dsimp only
    rw [show place a / 2 = j by omega, hnumber]
    omega

/-- The declarations of a file, in whatever order. -/
def SourceFile.Holds (file : SourceFile) (decls : List Decl) : Prop := ∃ l, file.declarations = .ok l ∧ l.Perm decls

variable {file : SourceFile} (h : file.Holds decls)

include h

private theorem SourceFile.Holds.parsed : Parsed decls := by
  obtain ⟨l, hl, hperm⟩ := h
  exact (file.parsed_of_declarations hl).perm hperm

private theorem SourceFile.Holds.located (hdistinct : (decls.map Decl.name).Nodup) : ∃ place, Located place decls := by
  obtain ⟨l, hl, hperm⟩ := h
  obtain ⟨place, hplace⟩ := file.located hl
  exact ⟨_, hplace.perm hperm hdistinct⟩

end

/--
Two modules have the same declarations up to spans, in whatever order, and no name is taken twice in
them.  If compilations go on behind problems, what is made of the modules is the same, and there are
problems in both or in none.
-/
theorem Module.compile_of_reordered (file file' : SourceFile) (options : Options)
    (hcontinue : options.continueOnError = true)
    (decls decls' : List Decl) (hdecls : file.Holds decls) (hdecls' : file'.Holds decls')
    (hdistinct : (decls.map Decl.name).Nodup) (m : Matching) (hm : m.Exact)
    (h : Reordered (Decl.Matches m) decls decls') :
    ∃ items p items' p',
      Phase.runAll options Phase.all (decls.map ({ decl := · })) { store := {} } = .ok (items, p) ∧
      Module.compile options { file, decls } = .ok ({ file, decls := items.map (·.decl), store := p.store }, p.errors) ∧
      Phase.runAll options Phase.all (decls'.map ({ decl := · })) { store := {} } = .ok (items', p') ∧
      Module.compile options { file := file', decls := decls' } =
        .ok ({ file := file', decls := items'.map (·.decl), store := p'.store }, p'.errors) ∧
      SameOutcome m.anyProblem decls decls' items items' p.store p'.store ∧ (p.errors = [] ↔ p'.errors = []) := by
  have hname : ∀ d d' : Decl, d.Matches m d' → d'.name = d.name := fun _ _ hd => hd.name
  have hdistinct' := h.distinct hname hdistinct
  obtain ⟨place, hlocated⟩ := hdecls.located hdistinct
  obtain ⟨place', hlocated'⟩ := hdecls'.located hdistinct'
  obtain ⟨items, p, store, items₁, q, hc⟩ := exists_passage hcontinue hdecls.parsed hlocated hdistinct
  obtain ⟨items', p', store', items₁', q', hc'⟩ := exists_passage hcontinue hdecls'.parsed hlocated' hdistinct'
  have hsame := (h.namesAlike hname hdistinct).same_outcome hm hc hc' (h.perm_keys hname)
  have hfailed : items₁'.all (!·.failed) = items₁.all (!·.failed) :=
    hsame.items.all_eq fun _ _ hi => congrArg _ hi.failed
  refine ⟨items₁, q, items₁', q', hc.run, hc.compile file, hc'.run, hc'.compile file', hsame, ?_⟩
  rw [hc.errors_eq_nil_iff, hc'.errors_eq_nil_iff, hfailed]

/--
The order of declarations does not matter.  No name is taken twice in a module, whose declarations
are compiled in two orders, and the compilations go on behind problems.  Then what is made of them
is the same: the same declarations fail, and the text of the type of every field, function and node
is the same (`SameOutcome`).  If there are no problems in one order, there are none in the other.
-/
theorem SourceFile.compile_reordered (file : SourceFile) (options : Options)
    (hcontinue : options.continueOnError = true)
    (decls decls' : List Decl) (hdecls : file.declarations = .ok decls) (hdistinct : (decls.map Decl.name).Nodup)
    (hperm : decls.Perm decls') :
    ∃ items p items' p',
      Phase.runAll options Phase.all (decls.map ({ decl := · })) { store := {} } = .ok (items, p) ∧
      Module.compile options { file, decls } = .ok ({ file, decls := items.map (·.decl), store := p.store }, p.errors) ∧
      Phase.runAll options Phase.all (decls'.map ({ decl := · })) { store := {} } = .ok (items', p') ∧
      Module.compile options { file, decls := decls' } =
        .ok ({ file, decls := items'.map (·.decl), store := p'.store }, p'.errors) ∧
      SameOutcome Matching.same.anyProblem decls decls' items items' p.store p'.store ∧
          (p.errors = [] ↔ p'.errors = []) :=
  Module.compile_of_reordered file file options hcontinue decls decls' ⟨decls, hdecls, .refl _⟩ ⟨decls, hdecls, hperm⟩
    hdistinct Matching.same Matching.same_exact (reordered_of_perm hperm)

/-- A struct in front of the one it contains, and a function with a problem between them; and all of them backwards. -/
theorem SourceFile.compile_reordered_backwards : ∃ (file : SourceFile) (decls : List Decl) (items items' : List Item)
    (p p' : Progress),
    file.contents = "struct A{b:B}fn f(){g;}struct B{}".toList ∧
      file.declarations = .ok decls ∧ (decls.map Decl.name).Nodup ∧ decls.Perm decls.reverse ∧
      Phase.runAll {} Phase.all (decls.map ({ decl := · })) { store := {} } = .ok (items, p) ∧
      Module.compile {} { file, decls } = .ok ({ file, decls := items.map (·.decl), store := p.store }, p.errors) ∧
      Phase.runAll {} Phase.all (decls.reverse.map ({ decl := · })) { store := {} } = .ok (items', p') ∧
      Module.compile {} { file, decls := decls.reverse } =
        .ok ({ file, decls := items'.map (·.decl), store := p'.store }, p'.errors) ∧
      SameOutcome Matching.same.anyProblem decls decls.reverse items items' p.store p'.store ∧
      (p.errors = [] ↔ p'.errors = []) := by
  have hdecls : SourceFile.declarations
      ⟨"order", "struct A{b:B}fn f(){g;}struct B{}".toList⟩ =
      .ok [.struct ⟨"A", .ofLength 7 1, false, [⟨"b", .ofLength 9 1, .named (.ofLength 11 1) "B"⟩]⟩,
        namingFunction "f" 13 ["g"], .struct ⟨"B", .ofLength 30 1, false, []⟩] := by
    have htokens : SourceFile.tokens ⟨"order", "struct A{b:B}fn f(){g;}struct B{}".toList⟩ =
        .ok ([⟨.keyword .structWord, .ofLength 0 6, "struct"⟩, ⟨.identifier, .ofLength 7 1, "A"⟩,
          ⟨.leftBrace, .ofLength 8 1, .ofList ['{']⟩, ⟨.identifier, .ofLength 9 1, "b"⟩, ⟨.colon, .ofLength 10 1, ":"⟩,
          ⟨.identifier, .ofLength 11 1, "B"⟩, ⟨.rightBrace, .ofLength 12 1, .ofList ['}']⟩] ++
          namingTokens "f" 13 ["g"] ++
          [⟨.keyword .structWord, .ofLength 23 6, "struct"⟩, ⟨.identifier, .ofLength 30 1, "B"⟩,
          ⟨.leftBrace, .ofLength 31 1, .ofList ['{']⟩, ⟨.rightBrace, .ofLength 32 1, .ofList ['}']⟩,
          ⟨.endOfInput, .ofLength 33 0, ""⟩]) := by
      decide +kernel
    rw [SourceFile.declarations, htokens]
    rfl
  obtain ⟨items, p, items', p', h⟩ :=
    SourceFile.compile_reordered _ {} rfl _ _ hdecls (by decide) (List.reverse_perm _).symm
  exact ⟨_, _, items, items', p, p', rfl, hdecls, by decide, (List.reverse_perm _).symm, h⟩

end RainCheck

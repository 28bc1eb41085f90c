import Mathlib.Data.List.Nodup
import RainCheck.Proofs.Faults
import RainCheck.Types

/-!
# Asking for types

What the list of types is after any number of requests, each for types that are listed by then.
* Nothing that is listed changes or moves; a request gives a position at which there is what was asked for, and adds to
  the list only what is not there yet, or a struct.
* References and function types are listed once, behind the types that they are made of (`Types.Ordered`), so that the
  text of every type can be written.
* It makes no difference whether a list is searched for what is asked for, or the positions are kept in an index, with
  the numbers of a function type written one behind the other as its key (`TypeIndex`).
-/

namespace RainCheck

/-! ### Entries -/

/-- The types that a type is made of. -/
def TypeEntry.parts : TypeEntry → List TypeId
  | .reference inner => [inner]
  | .function params returns => returns :: params
  | _ => []

theorem TypeEntry.isReferenceTo_iff {inner : TypeId} {e : TypeEntry} :
    e.isReferenceTo inner = true ↔ e = .reference inner := by
  cases e <;> simp [isReferenceTo]

theorem TypeEntry.isFunctionOf_iff {params : List TypeId} {returns : TypeId} {e : TypeEntry} :
    e.isFunctionOf params returns = true ↔ e = .function params returns := by
  cases e <;> simp [isFunctionOf]

namespace Types

variable {ts : Types} {id : TypeId} {e : TypeEntry}

/-- Asking for a type gives one that is there, or adds it at the end. -/
theorem intern_cases {p : TypeEntry → Bool} {entry : TypeEntry} (hp : ∀ e, p e = true ↔ e = entry) :
    (∃ id, ts.intern p entry = (id, ts) ∧ ts.entries[id]? = some entry) ∨
      ts.intern p entry = (ts.size, { ts with entries := ts.entries ++ [entry] }) ∧ entry ∉ ts.entries := by
  unfold Types.intern
  cases hfind : ts.entries.findIdx? p with
  | none =>
    refine .inr ⟨rfl, fun hmem => ?_⟩
    have hnone := List.findIdx?_eq_none_iff.mp hfind entry hmem
    rw [(hp entry).mpr rfl] at hnone
    cases hnone
  | some id =>
    obtain ⟨hlt, hpid, -⟩ := List.findIdx?_eq_some_iff_getElem.mp hfind
    exact .inl ⟨id, rfl, by rw [List.getElem?_eq_getElem hlt, (hp _).mp hpid]⟩

/-- The types of a longer list are those of the list and the one that is added. -/
theorem entry_add {x : TypeEntry} :
    (ts.add e).2.entries[id]? = some x ↔ ts.entries[id]? = some x ∨ id = ts.size ∧ x = e := by
  unfold Types.add Types.size
  rcases Nat.lt_trichotomy id ts.entries.length with hlt | rfl | hlt
  · simp [List.getElem?_append_left hlt, Nat.ne_of_lt hlt]
  · simp [eq_comm]
  · have hnone : ts.entries[id]? = none := List.getElem?_eq_none (Nat.le_of_lt hlt)
    have hnone' : (ts.entries ++ [e])[id]? = none := List.getElem?_eq_none (by rw [List.length_append]; exact hlt)
    rw [hnone, hnone']
    simp [Nat.ne_of_gt hlt]

/-! ### Lists in order -/

/-- Types stand behind the types that they are made of, and only structs can be listed twice. -/
structure Ordered (ts : Types) : Prop where
  parts : ∀ (id : TypeId) e, ts.entries[id]? = some e → ∀ t ∈ e.parts, t < id
  once : ∀ (id id' : TypeId) e, ts.entries[id]? = some e → ts.entries[id']? = some e → e.struct? = none → id = id'

theorem Ordered.add (h : ts.Ordered) (hparts : ∀ t ∈ e.parts, t < ts.size) (hnew : e.struct? = none → e ∉ ts.entries) :
    (ts.add e).2.Ordered where
  parts id x hx := by
    rcases entry_add.mp hx with hx | ⟨rfl, rfl⟩
    · exact h.parts id x hx
    · exact hparts
  once id id' x hx hx' hstruct := by
    have hfresh : e.struct? = none → ∀ {id : TypeId}, ts.entries[id]? ≠ some e := fun hnone id h =>
      hnew hnone (List.mem_of_getElem? h)
    rcases entry_add.mp hx with hx | ⟨rfl, rfl⟩ <;> rcases entry_add.mp hx' with hx' | ⟨rfl, heq⟩
    · exact h.once id id' x hx hx' hstruct
    · exact absurd (heq ▸ hx) (hfresh (heq ▸ hstruct))
    · exact absurd hx' (hfresh hstruct)
    · rfl

private theorem ordered_initial : initial.Ordered where
  parts id e he := by
    obtain ⟨name, -, rfl⟩ := List.mem_map.mp (List.mem_of_getElem? he)
    exact nofun
  once id id' e he he' _ := by
    have hnodup : initial.entries.Nodup :=
      List.Nodup.map (fun _ _ => TypeEntry.primitive.inj) (show primitives.Nodup by decide)
    exact (List.getElem?_inj (List.getElem?_eq_some_iff.mp he).1 hnodup).mp (he.trans he'.symm)

/-! ### Texts -/

/-- The text of a type, from what is known about the texts of its parts. -/
def textFrom (ts : Types) (part : TypeId → Except Fault String) (id : TypeId) : Except Fault String := do
  match ← ts.get id with
  | .primitive name => return name
  | .struct decl _ => return decl.name
  | .reference inner => return "&" ++ (← part inner)
  | .function params returns =>
    let params ← params.mapM part
    if returns = TypeId.void then return functionText params none
    else return functionText params (some (← part returns))

private theorem textWithin_succ (ts : Types) (depth : Nat) (id : TypeId) :
    ts.textWithin (depth + 1) id = ts.textFrom (ts.textWithin depth) id :=
  rfl

/-- Texts of all parts make a text. -/
private theorem textFrom_ok {part : TypeId → Except Fault String} {texts : TypeId → String}
    (he : ts.entries[id]? = some e)
    (hparts : ∀ t ∈ e.parts, part t = .ok (texts t)) : ∃ text, ts.textFrom part id = .ok text := by
  have hget : ts.get id = .ok e := itemAt_eq_ok_iff.mpr he
  rw [textFrom, hget, ok_bind]
  cases e with
  | primitive name => exact ⟨name, rfl⟩
  | struct decl state => exact ⟨decl.name, rfl⟩
  | reference inner => exact ⟨_, by simp only [hparts inner (by simp [TypeEntry.parts])]; rfl⟩
  | function params returns =>
    have hparams : params.mapM part = .ok (params.map texts) :=
      (mapM_congr fun p hp => hparts p (by simp [TypeEntry.parts, hp])).trans List.mapM_pure
    simp only [hparams, ok_bind, hparts returns (by simp [TypeEntry.parts])]
    split
    · exact ⟨_, rfl⟩
    · exact ⟨_, rfl⟩

/-- The text of a type depends on the texts of its parts only. -/
private theorem textFrom_congr {part part' : TypeId → Except Fault String} (he : ts.entries[id]? = some e)
    (hparts : ∀ t ∈ e.parts, part t = part' t) : ts.textFrom part id = ts.textFrom part' id := by
  have hget : ts.get id = .ok e := itemAt_eq_ok_iff.mpr he
  rw [textFrom, textFrom, hget, ok_bind, ok_bind]
  cases e with
  | primitive | struct => rfl
  | reference inner => simp only [hparts inner (by simp [TypeEntry.parts])]
  | function params returns =>
    have hparams : params.mapM part = params.mapM part' :=
      mapM_congr fun p hp => hparts p (by simp [TypeEntry.parts, hp])
    simp only [hparams, hparts returns (by simp [TypeEntry.parts])]

namespace Ordered

variable (h : ts.Ordered)
include h

/-- The text of a type is the same for every depth that goes beyond its position. -/
private theorem textWithin_eq (id : TypeId) : ∀ {depth depth' : Nat}, id < ts.size → id < depth → id < depth' →
    ts.textWithin depth id = ts.textWithin depth' id := by
  induction id using Nat.strongRecOn with
  | ind id ih =>
    rintro (_ | depth) (_ | depth') hsize hdepth hdepth'
    · rfl
    · exact absurd hdepth (Nat.not_lt_zero _)
    · exact absurd hdepth' (Nat.not_lt_zero _)
    · rw [textWithin_succ, textWithin_succ]
      refine textFrom_congr (List.getElem?_eq_getElem hsize) fun t ht => ?_
      have hlt : t < id := h.parts id _ (List.getElem?_eq_getElem hsize) t ht
      exact ih t hlt (Nat.lt_trans hlt hsize) (Nat.lt_of_lt_of_le hlt (Nat.le_of_lt_succ hdepth))
        (Nat.lt_of_lt_of_le hlt (Nat.le_of_lt_succ hdepth'))

/-- The text of a type is made of the texts of its parts, however deep it is. -/
private theorem text_eq (hsize : id < ts.size) : ts.text id = ts.textFrom ts.text id := by
  rw [text, textWithin_succ]
  refine textFrom_congr (List.getElem?_eq_getElem hsize) fun t ht => ?_
  have hlt : t < id := h.parts id _ (List.getElem?_eq_getElem hsize) t ht
  exact h.textWithin_eq t (Nat.lt_trans hlt hsize) hlt (Nat.lt_succ_self t)

/-- Every type has a text: its parts stand in front of it. -/
theorem text_ok (hsize : id < ts.size) : ∃ text, ts.text id = .ok text := by
  induction id using Nat.strongRecOn with
  | ind id ih =>
    have he : ts.entries[id]? = some ts.entries[id] := List.getElem?_eq_getElem hsize
    have hparts : ∀ t, ∃ text, t ∈ ts.entries[id].parts → ts.text t = .ok text := fun t => by
      by_cases ht : t ∈ ts.entries[id].parts
      · have hlt : t < id := h.parts id _ he t ht
        exact (ih t hlt (Nat.lt_trans hlt hsize)).imp fun _ htext _ => htext
      · exact ⟨"", fun hmem => absurd hmem ht⟩
    choose texts htexts using hparts
    rw [h.text_eq hsize]
    exact textFrom_ok he htexts

end Ordered

end Types

/-! ### Requests -/

/-- A request for a type. -/
inductive TypeRequest where
  | reference (inner : TypeId)
  | function (params : List TypeId) (returns : TypeId)
  | struct (decl : StructDecl)

namespace TypeRequest

variable {ts ts' : Types} {id : TypeId} {r : TypeRequest}

/-- What is asked for. -/
def entry : TypeRequest → TypeEntry
  | .reference inner => .reference inner
  | .function params returns => .function params returns
  | .struct decl => .struct decl .unresolved

/-- The position that is given, and the list after it. -/
def serve (ts : Types) : TypeRequest → TypeId × Types
  | .reference inner => ts.reference inner
  | .function params returns => ts.functionOf params returns
  | .struct decl => ts.addStruct decl

/-- What a request leaves of a list, and where what was asked for stands then. -/
structure Answered (ts : Types) (r : TypeRequest) (id : TypeId) (ts' : Types) : Prop where
  /-- Nothing changes or moves. -/
  kept : ts.entries <+: ts'.entries
  /-- There is what was asked for. -/
  found : ts'.get id = .ok r.entry
  /-- What is listed is not added again, unless it is a struct. -/
  reused : r.entry.struct? = none → r.entry ∈ ts.entries → ts' = ts
  /-- What is not listed, or is a struct, is added at the end. -/
  added : r.entry.struct? ≠ none ∨ r.entry ∉ ts.entries → id = ts.size ∧ ts'.entries = ts.entries ++ [r.entry]

/-- A request is answered with what stands in the list, or what is added to it. -/
private theorem serve_cases (r : TypeRequest) (ts : Types) :
    (r.entry.struct? = none ∧ ∃ id, r.serve ts = (id, ts) ∧ ts.entries[id]? = some r.entry) ∨
      r.serve ts = ts.add r.entry ∧ (r.entry.struct? = none → r.entry ∉ ts.entries) := by
  cases r with
  | reference inner =>
    rcases (Types.intern_cases fun _ => TypeEntry.isReferenceTo_iff :
      _ ∨ ts.intern (·.isReferenceTo inner) (.reference inner) = _ ∧ _) with hold | hnew
    · exact .inl ⟨rfl, hold⟩
    · exact .inr ⟨hnew.1, fun _ => hnew.2⟩
  | function params returns =>
    rcases (Types.intern_cases fun _ => TypeEntry.isFunctionOf_iff :
      _ ∨ ts.intern (·.isFunctionOf params returns) (.function params returns) = _ ∧ _) with hold | hnew
    · exact .inl ⟨rfl, hold⟩
    · exact .inr ⟨hnew.1, fun _ => hnew.2⟩
  | struct decl => exact .inr ⟨rfl, nofun⟩

private theorem serve_answered (r : TypeRequest) (ts : Types) : r.Answered ts (r.serve ts).1 (r.serve ts).2 := by
  rcases r.serve_cases ts with ⟨hstruct, id, hserve, he⟩ | ⟨hserve, hnew⟩ <;> rw [hserve]
  · exact ⟨List.prefix_rfl, itemAt_eq_ok_iff.mpr he, fun _ _ => rfl, fun hadd =>
      absurd (List.mem_of_getElem? he) (hadd.resolve_left (not_not.mpr hstruct))⟩
  · exact ⟨List.prefix_append _ _, itemAt_eq_ok_iff.mpr (Types.entry_add.mpr (.inr ⟨rfl, rfl⟩)),
      fun hstruct hmem => absurd hmem (hnew hstruct), fun _ => ⟨rfl, rfl⟩⟩

/-- A request for types that are listed leaves the list in order. -/
private theorem serve_ordered (h : ts.Ordered) (r : TypeRequest) (hparts : ∀ t ∈ r.entry.parts, t < ts.size) :
    (r.serve ts).2.Ordered := by
  rcases r.serve_cases ts with ⟨-, id, hserve, -⟩ | ⟨hserve, hnew⟩ <;> rw [hserve]
  · exact h
  · exact h.add hparts hnew

end TypeRequest

namespace Types

variable {ts : Types} {rs rs' : List TypeRequest}

/-- The positions that are given to several requests, one after the other, and the list after them. -/
def serveAll (ts : Types) : List TypeRequest → List TypeId × Types
  | [] => ([], ts)
  | r :: rs =>
    let (id, ts) := r.serve ts
    let (ids, ts) := ts.serveAll rs
    (id :: ids, ts)

/-- Every request is for types that are listed by then. -/
def Admits (ts : Types) : List TypeRequest → Prop
  | [] => True
  | r :: rs => (∀ t ∈ r.entry.parts, t < ts.size) ∧ (r.serve ts).2.Admits rs

instance decidableAdmits : (ts : Types) → (rs : List TypeRequest) → Decidable (ts.Admits rs)
  | _, [] => .isTrue trivial
  | ts, r :: rs => @instDecidableAnd _ _ inferInstance (decidableAdmits (r.serve ts).2 rs)

private theorem serveAll_cons (ts : Types) (r : TypeRequest) (rs : List TypeRequest) :
    ts.serveAll (r :: rs) = ((r.serve ts).1 :: ((r.serve ts).2.serveAll rs).1, ((r.serve ts).2.serveAll rs).2) := rfl

private theorem serveAll_append (ts : Types) (rs rs' : List TypeRequest) :
    ts.serveAll (rs ++ rs') =
      ((ts.serveAll rs).1 ++ ((ts.serveAll rs).2.serveAll rs').1, ((ts.serveAll rs).2.serveAll rs').2) := by
  induction rs generalizing ts with
  | nil => rfl
  | cons r rs ih => simp only [List.cons_append, serveAll_cons, ih]

@[simp] theorem length_serveAll (ts : Types) (rs : List TypeRequest) : (ts.serveAll rs).1.length = rs.length := by
  induction rs generalizing ts with
  | nil => rfl
  | cons r rs ih => simp [serveAll_cons, ih]

private theorem serveAll_kept (ts : Types) (rs : List TypeRequest) : ts.entries <+: (ts.serveAll rs).2.entries := by
  induction rs generalizing ts with
  | nil => exact List.prefix_rfl
  | cons r rs ih => exact (r.serve_answered ts).kept.trans (ih _)

/-- Each request is answered, and what it gives stays until the end. -/
private theorem serveAll_answered (ts : Types) (before : List TypeRequest) (r : TypeRequest)
    (after : List TypeRequest) :
    ∃ id next, r.serve (ts.serveAll before).2 = (id, next) ∧
      (ts.serveAll (before ++ r :: after)).1[before.length]? = some id ∧ r.Answered (ts.serveAll before).2 id next ∧
      next.entries <+: (ts.serveAll (before ++ r :: after)).2.entries ∧
      (ts.serveAll (before ++ r :: after)).2.get id = .ok r.entry := by
  have hanswered := r.serve_answered (ts.serveAll before).2
  have hall := serveAll_append ts before (r :: after)
  rw [serveAll_cons] at hall
  generalize r.serve (ts.serveAll before).2 = answer at hanswered hall ⊢
  obtain ⟨id, next⟩ := answer
  have hkept := next.serveAll_kept after
  refine ⟨id, next, rfl, ?_, hanswered, by rw [hall]; exact hkept, ?_⟩
  · simp [hall]
  · have hfound := itemAt_eq_ok_iff.mp hanswered.found
    obtain ⟨added, hadded⟩ := hkept
    rw [hall]
    refine itemAt_eq_ok_iff.mpr ?_
    rw [← hadded, List.getElem?_append_left (List.getElem?_eq_some_iff.mp hfound).1, hfound]

private theorem Ordered.serveAll (h : ts.Ordered) (hrs : ts.Admits rs) : (ts.serveAll rs).2.Ordered := by
  induction rs generalizing ts with
  | nil => exact h
  | cons r rs ih => exact ih (r.serve_ordered h hrs.1) hrs.2

end Types

/-! ### Keys of function types -/

/-- The characters of numbers with blanks between them. -/
def numbersText (ids : List TypeId) : List Char := [' '].intercalate (ids.map (Nat.toDigits 10))

/-- The key of a function type: the numbers of its parameters in brackets, and that of its result. -/
def functionKey (params : List TypeId) (returns : TypeId) : String :=
  .ofList ('[' :: numbersText params ++ ']' :: ':' :: Nat.toDigits 10 returns)

/-- The digits in front of something that is not a digit are those of one number. -/
private theorem digits_inj {n m : Nat} {c d : Char} {xs ys : List Char} (hc : c.isDigit = false)
    (hd : d.isDigit = false)
    (h : Nat.toDigits 10 n ++ c :: xs = Nat.toDigits 10 m ++ d :: ys) : n = m ∧ c = d ∧ xs = ys := by
  have htake : ∀ {k : Nat} {c : Char} {xs : List Char}, c.isDigit = false →
      (Nat.toDigits 10 k ++ c :: xs).takeWhile Char.isDigit = Nat.toDigits 10 k := by
    intro k c xs hc
    rw [List.takeWhile_append_of_pos fun x hx => Nat.isDigit_of_mem_toDigits (by decide) (by decide) hx,
      List.takeWhile_cons_of_neg (by simp [hc]), List.append_nil]
  have hdigits : Nat.toDigits 10 n = Nat.toDigits 10 m := by rw [← htake hc, h, htake hd]
  have hrest : c :: xs = d :: ys := List.append_cancel_left (hdigits ▸ h)
  refine ⟨?_, (List.cons.inj hrest).1, (List.cons.inj hrest).2⟩
  rw [← Nat.ofDigitChars_ten_toDigits (n := n), hdigits, Nat.ofDigitChars_ten_toDigits]

@[simp] theorem numbersText_nil : numbersText [] = [] := rfl

@[simp] theorem numbersText_singleton (t : TypeId) : numbersText [t] = Nat.toDigits 10 t := List.intercalate_singleton

@[simp] theorem numbersText_cons_cons (t u : TypeId) (ids : List TypeId) :
    numbersText (t :: u :: ids) = Nat.toDigits 10 t ++ ' ' :: numbersText (u :: ids) := by
  simp [numbersText, List.intercalate_cons_cons]

/-- What lists a number does not start with the bracket that ends it. -/
private theorem numbersText_ne {t : TypeId} {ids : List TypeId} {xs ys : List Char} :
    ']' :: xs ≠ numbersText (t :: ids) ++ ys := by
  intro h
  obtain ⟨c, cs, hdigits⟩ := List.exists_cons_of_ne_nil (Nat.toDigits_ne_nil (n := t) (b := 10))
  have hc : c.isDigit = true :=
    Nat.isDigit_of_mem_toDigits (b := 10) (n := t) (by decide) (by decide) (by simp [hdigits])
  have hhead : ']' = c := by cases ids <;> simp [hdigits] at h <;> exact h.1
  subst hhead
  cases hc

/-- Numbers in front of a bracket can be read back. -/
private theorem numbersText_inj {ids ids' : List TypeId} {rest rest' : List Char}
    (h : numbersText ids ++ ']' :: rest = numbersText ids' ++ ']' :: rest') : ids = ids' ∧ rest = rest' := by
  induction ids generalizing ids' with
  | nil =>
    cases ids' with
    | nil => exact ⟨rfl, (List.cons.inj h).2⟩
    | cons => exact absurd h numbersText_ne
  | cons t ids ih =>
    rcases ids' with _ | ⟨t', ids'⟩
    · exact absurd h.symm numbersText_ne
    -- what is behind the first number says whether there are more
    rcases ids with _ | ⟨u, ids⟩ <;> rcases ids' with _ | ⟨u', ids'⟩ <;>
      simp only [numbersText_singleton, numbersText_cons_cons, List.append_assoc, List.cons_append] at h <;>
      obtain ⟨rfl, hmark, hrest⟩ := digits_inj (by decide) (by decide) h
    · exact ⟨rfl, hrest⟩
    · cases hmark
    · cases hmark
    · obtain ⟨hids, hrest⟩ := ih hrest
      exact ⟨by rw [hids], hrest⟩

private theorem functionKey_inj {params params' : List TypeId} {returns returns' : TypeId} :
    functionKey params returns = functionKey params' returns' ↔ params = params' ∧ returns = returns' := by
  refine ⟨fun h => ?_, fun h => by rw [h.1, h.2]⟩
  have hchars := (List.cons.inj (String.ofList_injective h)).2
  obtain ⟨rfl, hrest⟩ := numbersText_inj hchars
  refine ⟨rfl, ?_⟩
  rw [← Nat.ofDigitChars_ten_toDigits (n := returns), (List.cons.inj hrest).2, Nat.ofDigitChars_ten_toDigits]

/-! ### Lists with an index -/

/--
A list of types with an index: where the reference to a type is, and where the function type with a key is.  What was
added last comes first.
-/
structure TypeIndex where
  types : Types
  references : List (TypeId × TypeId) := []
  functions : List (String × TypeId) := []

namespace TypeIndex

variable {t : TypeIndex}

/-- Adds a type to the list. -/
def add (t : TypeIndex) (e : TypeEntry) : TypeId × TypeIndex :=
  ((t.types.add e).1, { t with types := (t.types.add e).2 })

/-- The position that is given, and the list after it: what is in the index is not looked for in the list. -/
def serve (t : TypeIndex) : TypeRequest → TypeId × TypeIndex
  | .reference inner =>
    match t.references.lookup inner with
    | some id => (id, t)
    | none =>
      let (id, t) := t.add (.reference inner)
      (id, { t with references := (inner, id) :: t.references })
  | .function params returns =>
    match t.functions.lookup (functionKey params returns) with
    | some id => (id, t)
    | none =>
      let (id, t) := t.add (.function params returns)
      (id, { t with functions := (functionKey params returns, id) :: t.functions })
  | .struct decl => t.add (.struct decl .unresolved)

/-- The positions that are given to several requests, one after the other, and the list after them. -/
def serveAll (t : TypeIndex) : List TypeRequest → List TypeId × TypeIndex
  | [] => ([], t)
  | r :: rs =>
    let (id, t) := t.serve r
    let (ids, t) := t.serveAll rs
    (id :: ids, t)

/-- The index says where things stand in the list. -/
structure InStep (t : TypeIndex) : Prop where
  references : ∀ inner, t.references.lookup inner = t.types.entries.findIdx? (TypeEntry.isReferenceTo inner)
  functions : ∀ params returns,
    t.functions.lookup (functionKey params returns) = t.types.entries.findIdx? (TypeEntry.isFunctionOf params returns)

private theorem findIdx?_add {ts : Types} {e : TypeEntry} {p : TypeEntry → Bool} :
    (ts.add e).2.entries.findIdx? p = (ts.entries.findIdx? p).or (if p e then some ts.size else none) := by
  rw [Types.add, List.findIdx?_append, List.findIdx?_singleton]
  cases p e <;> simp [Types.size]

/-- A type that is not listed is added together with its place in the index. -/
private theorem InStep.add_reference (h : t.InStep) {inner : TypeId} (hnew : t.references.lookup inner = none) :
    InStep { (t.add (.reference inner)).2 with references := (inner, t.types.size) :: t.references } where
  references i := by
    change List.lookup i ((inner, t.types.size) :: t.references) = _
    rw [show (t.add (.reference inner)).2.types = (t.types.add (.reference inner)).2 from rfl, findIdx?_add,
      ← h.references i, List.lookup_cons]
    by_cases hi : i = inner
    · subst hi
      simp [hnew, TypeEntry.isReferenceTo]
    · simp [TypeEntry.isReferenceTo, beq_eq_false_iff_ne.mpr hi, Ne.symm hi]
  functions params returns := by
    change t.functions.lookup (functionKey params returns) = (t.types.add (.reference inner)).2.entries.findIdx? _
    rw [findIdx?_add, ← h.functions]
    simp [TypeEntry.isFunctionOf]

private theorem InStep.add_function (h : t.InStep) {params : List TypeId} {returns : TypeId}
    (hnew : t.functions.lookup (functionKey params returns) = none) :
    InStep { (t.add (.function params returns)).2 with
      functions := (functionKey params returns, t.types.size) :: t.functions } where
  references i := by
    change t.references.lookup i = (t.types.add (.function params returns)).2.entries.findIdx? _
    rw [findIdx?_add, ← h.references]
    simp [TypeEntry.isReferenceTo]
  functions ps r := by
    change List.lookup (functionKey ps r) ((functionKey params returns, t.types.size) :: t.functions) = _
    rw [show (t.add (.function params returns)).2.types = (t.types.add (.function params returns)).2 from rfl,
      findIdx?_add, ← h.functions, List.lookup_cons]
    by_cases hkey : functionKey ps r = functionKey params returns
    · obtain ⟨rfl, rfl⟩ := functionKey_inj.mp hkey
      simp [hnew, TypeEntry.isFunctionOf]
    · have hother : ¬(params = ps ∧ returns = r) := fun hsame => hkey (functionKey_inj.mpr ⟨hsame.1.symm, hsame.2.symm⟩)
      simp [TypeEntry.isFunctionOf, beq_eq_false_iff_ne.mpr hkey, hother]

private theorem InStep.add_struct (h : t.InStep) (decl : StructDecl) : (t.add (.struct decl .unresolved)).2.InStep where
  references i := by
    change t.references.lookup i = (t.types.add (.struct decl .unresolved)).2.entries.findIdx? _
    rw [findIdx?_add, ← h.references]
    simp [TypeEntry.isReferenceTo]
  functions ps r := by
    change t.functions.lookup (functionKey ps r) = (t.types.add (.struct decl .unresolved)).2.entries.findIdx? _
    rw [findIdx?_add, ← h.functions]
    simp [TypeEntry.isFunctionOf]

/-- With an index the answers are those of the list, and the index stays in step. -/
private theorem InStep.serve (h : t.InStep) (r : TypeRequest) :
    (t.serve r).2.InStep ∧ (t.serve r).1 = (r.serve t.types).1 ∧ (t.serve r).2.types = (r.serve t.types).2 := by
  cases r with
  | reference inner =>
    rw [TypeIndex.serve, TypeRequest.serve, Types.reference, Types.intern]
    cases hlookup : t.references.lookup inner with
    | some id =>
      rw [← h.references, hlookup]
      exact ⟨h, rfl, rfl⟩
    | none =>
      rw [← h.references, hlookup]
      exact ⟨h.add_reference hlookup, rfl, rfl⟩
  | function params returns =>
    rw [TypeIndex.serve, TypeRequest.serve, Types.functionOf, Types.intern]
    cases hlookup : t.functions.lookup (functionKey params returns) with
    | some id =>
      rw [← h.functions, hlookup]
      exact ⟨h, rfl, rfl⟩
    | none =>
      rw [← h.functions, hlookup]
      exact ⟨h.add_function hlookup, rfl, rfl⟩
  | struct decl => exact ⟨h.add_struct decl, rfl, rfl⟩

private theorem inStep_initial : InStep { types := .initial } where
  references i := by
    symm
    simp [Types.initial, List.findIdx?_eq_none_iff, TypeEntry.isReferenceTo]
  functions ps r := by
    symm
    simp [Types.initial, List.findIdx?_eq_none_iff, TypeEntry.isFunctionOf]

private theorem InStep.serveAll (h : t.InStep) (rs : List TypeRequest) :
    (t.serveAll rs).1 = (t.types.serveAll rs).1 ∧ (t.serveAll rs).2.types = (t.types.serveAll rs).2 := by
  induction rs generalizing t with
  | nil => exact ⟨rfl, rfl⟩
  | cons r rs ih =>
    obtain ⟨hstep, hid, htypes⟩ := h.serve r
    obtain ⟨hids, hlast⟩ := ih hstep
    rw [htypes] at hids hlast
    exact ⟨by rw [TypeIndex.serveAll, Types.serveAll_cons]; simp only [hid, hids], hlast⟩

end TypeIndex

/--
After any requests for types that are listed by then:
* each is answered with a position at which there is what was asked for, and what is listed by then stays where it is;
* references and function types are listed once, and made of types in front of them;
* every type has a text, which is made of the texts of its parts and does not depend on how deep one may look;
* a list with an index gives the same answers and ends with the same types.
-/
theorem Types.serveAll_exact (requests : List TypeRequest) (h : Types.initial.Admits requests) :
    let ids := (Types.initial.serveAll requests).1
    let ts := (Types.initial.serveAll requests).2
    (∀ before r after, requests = before ++ r :: after →
      let now := (Types.initial.serveAll before).2
      ∃ id next, r.serve now = (id, next) ∧ ids[before.length]? = some id ∧ r.Answered now id next ∧
        next.entries <+: ts.entries ∧ ts.get id = .ok r.entry) ∧
    (∀ id id' inner, ts.get id = .ok (.reference inner) → ts.get id' = .ok (.reference inner) → id = id') ∧
    (∀ id id' params returns, ts.get id = .ok (.function params returns) →
      ts.get id' = .ok (.function params returns) → id = id') ∧
    (∀ id inner, ts.get id = .ok (.reference inner) → inner < id) ∧
    (∀ id params returns, ts.get id = .ok (.function params returns) → (∀ p ∈ params, p < id) ∧ returns < id) ∧
    (∀ id < ts.size, ∃ text, ts.text id = .ok text ∧ ts.textFrom ts.text id = .ok text ∧
      ∀ depth, id < depth → ts.textWithin depth id = .ok text) ∧
    (TypeIndex.serveAll { types := .initial } requests).1 = ids ∧
    (TypeIndex.serveAll { types := .initial } requests).2.types = ts := by
  have hordered := Types.ordered_initial.serveAll h
  refine ⟨?_, ?_, ?_, ?_, ?_, ?_, ?_⟩
  · rintro before r after rfl
    exact serveAll_answered Types.initial before r after
  · exact fun id id' inner he he' => hordered.once id id' _ (itemAt_eq_ok_iff.mp he) (itemAt_eq_ok_iff.mp he') rfl
  · exact fun id id' params returns he he' =>
      hordered.once id id' _ (itemAt_eq_ok_iff.mp he) (itemAt_eq_ok_iff.mp he') rfl
  · exact fun id inner he => hordered.parts id _ (itemAt_eq_ok_iff.mp he) inner (by simp [TypeEntry.parts])
  · intro id params returns he
    have hparts := hordered.parts id _ (itemAt_eq_ok_iff.mp he)
    exact ⟨fun p hp => hparts p (by simp [TypeEntry.parts, hp]), hparts returns (by simp [TypeEntry.parts])⟩
  · intro id hsize
    obtain ⟨text, htext⟩ := hordered.text_ok hsize
    refine ⟨text, htext, (hordered.text_eq hsize).symm.trans htext, fun depth hdepth => ?_⟩
    rw [hordered.textWithin_eq id hsize hdepth (Nat.lt_succ_self id)]
    exact htext
  · exact TypeIndex.inStep_initial.serveAll requests

/-- Requests for a reference to a reference, for one function type twice, and for one struct twice. -/
def nestedRequests : List TypeRequest :=
  [.reference TypeId.i32, .function [7, TypeId.bool] TypeId.void, .reference 7, .struct ⟨"P", default, false, []⟩,
    .function [7, TypeId.bool] TypeId.void, .struct ⟨"P", default, false, []⟩, .reference TypeId.i32]

theorem Types.serveAll_exact_nested : Types.initial.Admits nestedRequests ∧
    (Types.initial.serveAll nestedRequests).1 = [7, 8, 9, 10, 8, 11, 7] ∧
    (TypeIndex.serveAll { types := .initial } nestedRequests).1 = [7, 8, 9, 10, 8, 11, 7] ∧
    ∃ text, (Types.initial.serveAll nestedRequests).2.text 9 = .ok text := by
  have hadmits : Types.initial.Admits nestedRequests := by decide
  have hids : (Types.initial.serveAll nestedRequests).1 = [7, 8, 9, 10, 8, 11, 7] := by decide
  obtain ⟨-, -, -, -, -, htexts, hindex, -⟩ := Types.serveAll_exact nestedRequests hadmits
  obtain ⟨text, htext, -⟩ := htexts 9 (by decide)
  exact ⟨hadmits, hids, hindex.trans hids, text, htext⟩

end RainCheck

import RainCheck.Proofs.FrameRequests

/-!
# The arena of frames

Frames that know only the number of the next frame around them (`Arena`).  Each has a table of its variables and one of
its types, and the orders in which their names were declared.
* A lookup goes from a frame to the next one around it, which is older, so it comes to an end.
* An arena answers requests as the frames do (`Arena.InStep.serve`), and whatever is looked up or
  listed afterwards is the same in both (`Arena.InStep.agrees`).
-/

namespace RainCheck

open Frames (Binding Answer)

/-- A frame with tables of its names, in which what was added last comes first, and the order of the names in each. -/
structure ArenaFrame where
  /-- The next frame around this one. -/
  parent : Option FrameId := none
  values : List (String × Variable) := []
  types : List (String × TypeId) := []
  order : List String := []
  typeOrder : List String := []

namespace ArenaFrame

/-- Whether a name is in one of the tables. -/
def has (f : ArenaFrame) (name : String) : Bool :=
  (f.values.lookup name).isSome || (f.types.lookup name).isSome

/-- A frame with one more declaration. -/
def add (f : ArenaFrame) : Binding → ArenaFrame
  | .value v => { f with values := (v.name, v) :: f.values, order := f.order ++ [v.name] }
  | .type name id _ => { f with types := (name, id) :: f.types, typeOrder := f.typeOrder ++ [name] }

/-- The entries of a table in the order of their names, each of which has to be in the table. -/
def entries {α : Type} (table : List (String × α)) (order : List String) : Except Fault (List (String × α)) :=
  order.mapM fun name => do return (name, ← unwrap (table.lookup name))

end ArenaFrame

/-- All frames. -/
structure Arena where
  frames : List ArenaFrame

namespace Arena

/-- The declarations of the primitive types. -/
def builtinBindings : List Binding := Frames.builtinTypes.map fun (name, id) => .type name id default

/-- The frame of the primitive types. -/
def builtin : ArenaFrame := builtinBindings.foldl ArenaFrame.add {}

/-- The frames of a module in which nothing is declared. -/
def initial : Arena := ⟨[builtin, { parent := some FrameId.builtin }, {}]⟩

/-- The frame with a number. -/
def get (a : Arena) (id : FrameId) : Except Fault ArenaFrame := itemAt a.frames id

/-- Adds an empty frame. -/
def alloc (a : Arena) (parent : Option FrameId) : FrameId × Arena :=
  (a.frames.length, ⟨a.frames ++ [{ parent := parent }]⟩)

/-- Declares a variable or a type in a frame, whose name must be new there. -/
def declare (a : Arena) (id : FrameId) (b : Binding) : Except Stop Arena := do
  let f ← Stop.lift (a.get id)
  if f.has b.name then .error (.refused ⟨b.span, .duplicateDeclaration b.name⟩)
  else return ⟨a.frames.set id (f.add b)⟩

/-- The answer to a request and the arena after it. -/
def serve (a : Arena) : Frames.Request → Except Fault (Answer × Arena)
  | .nest handle =>
    let (id, a) := a.alloc (some handle)
    .ok (.frame id, a)
  | .declare handle b => Frames.answerTo a (a.declare handle b)
  | .exported _ b => Frames.answerTo a (a.declare FrameId.exported b)

/-- The answers to several requests, one after the other, and the arena after them. -/
def serveAll (a : Arena) : List Frames.Request → Except Fault (List Answer × Arena)
  | [] => .ok ([], a)
  | q :: qs => do
    let (answer, a) ← a.serve q
    let (answers, a) ← a.serveAll qs
    return (answer :: answers, a)

/-- The first entry that a search finds on the way out of a frame, among as many frames as the bound allows. -/
def searchWithin {α : Type} (a : Arena) (find : ArenaFrame → Option α) :
    (bound : Nat) → FrameId → Except Fault (Option α)
  | 0, _ => .error .exhausted
  | bound + 1, id => do
    let f ← a.get id
    match find f, f.parent with
    | some x, _ => return some x
    | none, some outer => searchWithin a find bound outer
    | none, none => return none

/-- The variable that a name means in a frame. -/
def lookupWithin (a : Arena) (bound : Nat) (id : FrameId) (name : String) : Except Fault (Option Variable) :=
  a.searchWithin (fun f => f.values.lookup name) bound id

/-- The type that a name means in a frame. -/
def lookupTypeWithin (a : Arena) (bound : Nat) (id : FrameId) (name : String) : Except Fault (Option TypeId) :=
  a.searchWithin (fun f => f.types.lookup name) bound id

/-- The variables of a frame, in the order of their declaration. -/
def variablesOf (a : Arena) (id : FrameId) : Except Fault (List Variable) := do
  let f ← a.get id
  return (← ArenaFrame.entries f.values f.order).map (·.2)

/-- The exported variables. -/
def exports (a : Arena) : Except Fault (List Variable) := a.variablesOf FrameId.exported

/-- The exported types, in the order of their declaration. -/
def exportedTypes (a : Arena) : Except Fault (List (String × TypeId)) := do
  let f ← a.get FrameId.exported
  ArenaFrame.entries f.types f.typeOrder

end Arena

/-! ### Tables -/

section

variable {α : Type} {table values : List (String × α)} {name : String}

/-- An entry that is new is found in front of a table as behind a list. -/
private theorem lookup_add (h : ∀ key, table.lookup key = values.lookup key) (hnew : values.lookup name = none) (x : α)
    (key : String) : List.lookup key ((name, x) :: table) = (values ++ [(name, x)]).lookup key := by
  rw [List.lookup_append, List.lookup_cons, List.lookup_cons, List.lookup_nil, h]
  by_cases hkey : key = name
  · subst hkey
    simp [hnew]
  · simp [beq_eq_false_iff_ne.mpr hkey]

private theorem nodup_add (h : (values.map (·.1)).Nodup) (hnew : values.lookup name = none) (x : α) :
    ((values ++ [(name, x)]).map (·.1)).Nodup := by
  rw [List.map_append, List.nodup_append_comm]
  refine List.nodup_cons.mpr ⟨fun hmem => ?_, h⟩
  obtain ⟨e, he, heq⟩ := List.mem_map.mp hmem
  have hne := List.lookup_eq_none_iff.mp hnew e he
  simp [heq] at hne

/-- In the order of a list the entries of a table are the list. -/
private theorem entries_eq (h : ∀ e ∈ values, table.lookup e.1 = some e.2) :
    ArenaFrame.entries table (values.map (·.1)) = .ok values := by
  induction values with
  | nil => rfl
  | cons e values ih =>
    have hrest := ih fun x hx => h x (List.mem_cons_of_mem e hx)
    rw [ArenaFrame.entries] at hrest ⊢
    rw [List.map_cons, List.mapM_cons, h e List.mem_cons_self, unwrap_some, ok_bind, hrest]
    rfl

end

/-! ### Frames and their tables -/

/-- A frame of an arena has the names of another frame, and the same one around it. -/
structure ArenaFrame.Matches (f : ArenaFrame) (g : Frame) : Prop where
  parent : f.parent = g.outer.head?
  value : ∀ name, f.values.lookup name = g.values.lookup name
  type : ∀ name, f.types.lookup name = g.types.lookup name
  order : f.order = g.values.map (·.1)
  typeOrder : f.typeOrder = g.types.map (·.1)
  valueOnce : (g.values.map (·.1)).Nodup
  typeOnce : (g.types.map (·.1)).Nodup

namespace ArenaFrame.Matches

variable {f : ArenaFrame} {g : Frame}

/-- Empty frames match, if the same one is around them. -/
private theorem empty (outer : List FrameId) : Matches { parent := outer.head? } { outer := outer } where
  parent := rfl
  value _ := rfl
  type _ := rfl
  order := rfl
  typeOrder := rfl
  valueOnce := List.nodup_nil
  typeOnce := List.nodup_nil

variable (h : f.Matches g)
include h

private theorem has_eq (name : String) : f.has name = g.has name := by
  rw [ArenaFrame.has, h.value, h.type]
  rfl

private theorem add {b : Binding} (hnew : g.has b.name = false) : (f.add b).Matches (g.add b) := by
  simp only [Frame.has, Frame.findVariable, Frame.findType, Bool.or_eq_false_iff, Option.isSome_eq_false_iff,
    Option.isNone_iff_eq_none] at hnew
  cases b with
  | value v =>
    refine { h with value := lookup_add h.value hnew.1 v, order := ?_, valueOnce := nodup_add h.valueOnce hnew.1 v }
    rw [ArenaFrame.add, Frame.add, h.order, List.map_append]
    rfl
  | type name id span =>
    refine { h with type := lookup_add h.type hnew.2 id, typeOrder := ?_, typeOnce := nodup_add h.typeOnce hnew.2 id }
    rw [ArenaFrame.add, Frame.add, h.typeOrder, List.map_append]
    rfl

/-- Declarations of new names, one after the other. -/
private theorem foldl_add {bs : List Binding}
    (hnew : ∀ i (hi : i < bs.length), ((bs.take i).foldl Frame.add g).has bs[i].name = false) :
    (bs.foldl ArenaFrame.add f).Matches (bs.foldl Frame.add g) := by
  induction bs generalizing f g with
  | nil => exact h
  | cons b bs ih =>
    exact ih (h.add (hnew 0 (Nat.succ_pos _))) fun i hi => hnew (i + 1) (Nat.succ_lt_succ hi)

private theorem values_eq : entries f.values f.order = .ok g.values := by
  rw [h.order]
  exact entries_eq fun e he => (h.value e.1).trans (Store.lookup_of_mem he h.valueOnce)

private theorem types_eq : entries f.types f.typeOrder = .ok g.types := by
  rw [h.typeOrder]
  exact entries_eq fun e he => (h.type e.1).trans (Store.lookup_of_mem he h.typeOnce)

end ArenaFrame.Matches

/-! ### Arenas and frames -/

namespace Arena

/-- The frames of an arena match other frames, and so do the ways out of them. -/
structure InStep (a : Arena) (fs : Frames) : Prop where
  size : a.frames.length = fs.size
  frame : ∀ (id : FrameId) (f : ArenaFrame) (g : Frame), a.frames[id]? = some f → fs.frames[id]? = some g → f.Matches g
  outer : ∀ (id : FrameId) (g : Frame) (outer : FrameId) (rest : List FrameId), fs.frames[id]? = some g →
    g.outer = outer :: rest → outer < id ∧ ∃ g' : Frame, fs.frames[outer]? = some g' ∧ g'.outer = rest

/-- Whatever is asked about frames gives the same for an arena, however far it may look beyond the first frame. -/
structure Agrees (a : Arena) (fs : Frames) : Prop where
  size : a.frames.length = fs.size
  lookup : ∀ bound id name, id < bound → a.lookupWithin bound id name = fs.lookup id name
  lookupType : ∀ bound id name, id < bound → a.lookupTypeWithin bound id name = fs.lookupType id name
  variablesOf : ∀ id, a.variablesOf id = fs.variablesOf id
  exports : a.exports = fs.exports
  exportedTypes : a.exportedTypes = fs.exportedTypes

variable {a : Arena} {fs fs' : Frames} {id : FrameId}

private theorem builtin_matches : builtin.Matches { types := Frames.builtinTypes } := by
  have hnew : ∀ i (hi : i < 6), ((builtinBindings.take i).foldl Frame.add {}).has builtinBindings[i].name = false := by
    decide
  exact (ArenaFrame.Matches.empty []).foldl_add hnew

theorem inStep_initial : initial.InStep .initial where
  size := rfl
  frame id f g hf hg := by
    match id with
    | 0 =>
      cases hf
      cases hg
      exact builtin_matches
    | 1 =>
      cases hf
      cases hg
      exact .empty [FrameId.builtin]
    | 2 =>
      cases hf
      cases hg
      exact .empty []
    | id + 3 => cases hf
  outer id g outer rest hg houter := by
    match id with
    | 0 | 2 =>
      cases hg
      cases houter
    | 1 =>
      cases hg
      cases houter
      exact ⟨Nat.zero_lt_one, _, rfl, rfl⟩
    | id + 3 => cases hg

namespace InStep

variable (h : a.InStep fs)
include h

/-- A frame is there in both, or in neither. -/
private theorem get_cases (id : FrameId) : (∃ f g, a.get id = .ok f ∧ fs.frames[id]? = some g ∧ f.Matches g) ∨
    a.get id = .error .outOfRange ∧ fs.get id = .error .outOfRange := by
  by_cases hlt : id < fs.size
  · have hf : a.frames[id]? = some _ := List.getElem?_eq_getElem (h.size ▸ hlt)
    have hg : fs.frames[id]? = some _ := List.getElem?_eq_getElem hlt
    exact .inl ⟨_, _, itemAt_eq_ok_iff.mpr hf, hg, h.frame id _ _ hf hg⟩
  · have hle : fs.frames.length ≤ id := Nat.not_lt.mp hlt
    refine .inr ⟨?_, ?_⟩
    · rw [get, itemAt, List.getElem?_eq_none (h.size.trans_le hle)]
    · rw [Frames.get, itemAt, List.getElem?_eq_none hle]

/-- A new frame is empty, and inside the one it was asked for. -/
private theorem nest {g : Frame} (hg : fs.frames[id]? = some g) :
    InStep (a.alloc (some id)).2 ⟨fs.frames ++ [{ outer := id :: g.outer }]⟩ := by
  have hsize : a.frames.length = fs.frames.length := h.size
  have hlt : id < fs.frames.length := (List.getElem?_eq_some_iff.mp hg).1
  have hlast {k : FrameId} {g' : Frame} (hk : (fs.frames ++ [{ outer := id :: g.outer }])[k]? = some g') :
      fs.frames[k]? = some g' ∨ k = fs.frames.length ∧ g' = { outer := id :: g.outer } := by
    rcases Nat.lt_trichotomy k fs.frames.length with hlt | rfl | hlt
    · rw [List.getElem?_append_left hlt] at hk
      exact .inl hk
    · rw [List.getElem?_concat_length] at hk
      exact .inr ⟨rfl, (Option.some.inj hk).symm⟩
    · rw [List.getElem?_eq_none (by rw [List.length_append]; exact hlt)] at hk
      cases hk
  have hold {k : FrameId} {g' : Frame} (hk : fs.frames[k]? = some g') :
      (fs.frames ++ [{ outer := id :: g.outer }])[k]? = some g' := by
    rw [List.getElem?_append_left (List.getElem?_eq_some_iff.mp hk).1, hk]
  refine ⟨by simp [alloc, Frames.size, hsize], fun k f' g' hf' hg' => ?_, fun k g' outer rest hg' houter => ?_⟩
  · rcases hlast hg' with hg' | ⟨rfl, rfl⟩
    · rw [alloc, List.getElem?_append_left (hsize ▸ (List.getElem?_eq_some_iff.mp hg').1)] at hf'
      exact h.frame k f' g' hf' hg'
    · rw [alloc, ← hsize, List.getElem?_concat_length] at hf'
      cases hf'
      exact .empty (id :: g.outer)
  · rcases hlast hg' with hg' | ⟨rfl, rfl⟩
    · obtain ⟨hlt, g'', hg'', hrest⟩ := h.outer k g' outer rest hg' houter
      exact ⟨hlt, g'', hold hg'', hrest⟩
    · cases houter
      exact ⟨hlt, g, hold hg, rfl⟩

/-- A declaration changes one frame, and nothing around it. -/
private theorem declared {b : Binding} {f : ArenaFrame} {g : Frame} (hf : a.frames[id]? = some f)
    (hg : fs.frames[id]? = some g) (hnew : g.has b.name = false) :
    InStep ⟨a.frames.set id (f.add b)⟩ ⟨fs.frames.set id (g.add b)⟩ := by
  have hltf : id < a.frames.length := (List.getElem?_eq_some_iff.mp hf).1
  have hltg : id < fs.frames.length := (List.getElem?_eq_some_iff.mp hg).1
  have hkept {k : FrameId} {g' : Frame} (hk : (fs.frames.set id (g.add b))[k]? = some g') :
      ∃ g'', fs.frames[k]? = some g'' ∧ g''.outer = g'.outer := by
    by_cases heq : id = k
    · subst heq
      rw [List.getElem?_set_self hltg] at hk
      cases hk
      exact ⟨g, hg, (g.outer_add b).symm⟩
    · rw [List.getElem?_set_ne heq] at hk
      exact ⟨g', hk, rfl⟩
  have hkeeps {k : FrameId} {g' : Frame} (hk : fs.frames[k]? = some g') :
      ∃ g'', (fs.frames.set id (g.add b))[k]? = some g'' ∧ g''.outer = g'.outer := by
    by_cases heq : id = k
    · subst heq
      cases hg.symm.trans hk
      exact ⟨g.add b, List.getElem?_set_self hltg, g.outer_add b⟩
    · exact ⟨g', (List.getElem?_set_ne heq).trans hk, rfl⟩
  refine ⟨by simpa [Frames.size] using h.size, fun k f' g' hf' hg' => ?_, fun k g' outer rest hg' houter => ?_⟩
  · by_cases heq : id = k
    · subst heq
      rw [List.getElem?_set_self hltf] at hf'
      rw [List.getElem?_set_self hltg] at hg'
      cases hf'
      cases hg'
      exact (h.frame id f g hf hg).add hnew
    · rw [List.getElem?_set_ne heq] at hf' hg'
      exact h.frame k f' g' hf' hg'
  · obtain ⟨g₁, hg₁, houter₁⟩ := hkept hg'
    obtain ⟨hlt, g₂, hg₂, hrest⟩ := h.outer k g₁ outer rest hg₁ (houter₁.trans houter)
    obtain ⟨g₃, hg₃, houter₃⟩ := hkeeps hg₂
    exact ⟨hlt, g₃, hg₃, houter₃.trans hrest⟩

/-- A request is answered as by the frames, and the arena stays in step. -/
theorem serve {q : Frames.Request} {answer : Answer} (hserve : fs.serve q = .ok (answer, fs')) :
    ∃ a', a.serve q = .ok (answer, a') ∧ a'.InStep fs' := by
  cases htarget : q.target? with
  | none =>
    cases q with
    | nest handle =>
      obtain ⟨f, g, -, hg, -⟩ | ⟨-, hg⟩ := h.get_cases handle
      · cases (Frames.serve_nest hg).symm.trans hserve
        exact ⟨_, congrArg (fun n => Except.ok (Answer.frame n, (a.alloc (some handle)).2)) h.size, h.nest hg⟩
      · rw [Frames.serve, Frames.nest, hg] at hserve
        cases hserve
    | declare | exported => cases htarget
  | some target =>
    obtain ⟨id, b⟩ := target
    have harena : a.serve q = Frames.answerTo a (a.declare id b) := by
      cases q with
      | nest => cases htarget
      | declare | exported =>
        cases htarget
        rfl
    obtain ⟨f, g, hf, hg, hmatches⟩ | ⟨-, hg⟩ := h.get_cases id
    · have hdeclare : a.declare id b = if f.has b.name then .error (.refused ⟨b.span, .duplicateDeclaration b.name⟩)
          else .ok ⟨a.frames.set id (f.add b)⟩ := by
        rw [declare, hf]
        rfl
      rw [harena, hdeclare, hmatches.has_eq]
      cases hhas : g.has b.name with
      | true =>
        cases (Frames.serve_refused htarget hg hhas).symm.trans hserve
        exact ⟨a, rfl, h⟩
      | false =>
        cases (Frames.serve_declared htarget hg (Bool.eq_false_iff.mp hhas)).symm.trans hserve
        exact ⟨_, rfl, h.declared (itemAt_eq_ok_iff.mp hf) hg hhas⟩
    · have hfault : fs.declareBinding id b = .error (.fault .outOfRange) := by
        cases b with
        | value =>
          rw [Frames.declareBinding, Frames.declare, hg]
          rfl
        | type =>
          rw [Frames.declareBinding, Frames.declareType, hg]
          rfl
      rw [Frames.serve_target htarget, hfault] at hserve
      cases hserve

/-! ### What is seen from a frame -/

/-- A search finds the same, however far it may look beyond the first frame. -/
private theorem searchWithin_eq {α : Type} {find : ArenaFrame → Option α} {find' : Frame → Option α}
    (hfind : ∀ f g, f.Matches g → find f = find' g) {bound : Nat} (hbound : id < bound) :
    a.searchWithin find bound id = fs.search find' id := by
  have hsearch {k : FrameId} {g : Frame} (hg : fs.frames[k]? = some g) :
      fs.search find' k = fs.searchIn find' (k :: g.outer) := by
    rw [Frames.search, Frames.chain, Frames.get, itemAt_eq_ok_iff.mpr hg]
    rfl
  induction bound generalizing id with
  | zero => cases hbound
  | succ bound ih =>
    obtain ⟨f, g, hf, hg, hmatches⟩ | ⟨hf, hg⟩ := h.get_cases id
    · rw [searchWithin, hf, hsearch hg, Frames.searchIn, Frames.get, itemAt_eq_ok_iff.mpr hg, ok_bind, ok_bind,
        hfind f g hmatches, hmatches.parent]
      cases find' g with
      | some x => rfl
      | none =>
        cases houter : g.outer with
        | nil => rfl
        | cons outer rest =>
          -- the next frame around this one is older
          obtain ⟨hlt, g', hg', rfl⟩ := h.outer id g outer rest hg houter
          exact (ih (Nat.lt_of_lt_of_le hlt (Nat.le_of_lt_succ hbound))).trans (hsearch hg')
    · rw [searchWithin, hf, Frames.search, Frames.chain, hg]
      rfl

private theorem variablesOf_eq (id : FrameId) : a.variablesOf id = fs.variablesOf id := by
  obtain ⟨f, g, hf, hg, hmatches⟩ | ⟨hf, hg⟩ := h.get_cases id
  · rw [variablesOf, hf, ok_bind, hmatches.values_eq, Frames.variablesOf, Frames.get, itemAt_eq_ok_iff.mpr hg]
    rfl
  · rw [variablesOf, hf, Frames.variablesOf, hg]
    rfl

private theorem exportedTypes_eq : a.exportedTypes = fs.exportedTypes := by
  obtain ⟨f, g, hf, hg, hmatches⟩ | ⟨hf, hg⟩ := h.get_cases FrameId.exported
  · rw [exportedTypes, hf, ok_bind, hmatches.types_eq, Frames.exportedTypes, Frames.get, itemAt_eq_ok_iff.mpr hg]
    rfl
  · rw [exportedTypes, hf, Frames.exportedTypes, hg]
    rfl

theorem agrees : a.Agrees fs where
  size := h.size
  lookup _ _ name hbound := h.searchWithin_eq (fun _ _ hmatches => hmatches.value name) hbound
  lookupType _ _ name hbound := h.searchWithin_eq (fun _ _ hmatches => hmatches.type name) hbound
  variablesOf := h.variablesOf_eq
  exports := h.variablesOf_eq FrameId.exported
  exportedTypes := h.exportedTypes_eq

end InStep

theorem serveAll_concat {a a' a'' : Arena} {qs : List Frames.Request} {q : Frames.Request} {answers : List Answer}
    {answer : Answer}
    (h : a.serveAll qs = .ok (answers, a')) (hlast : a'.serve q = .ok (answer, a'')) :
    a.serveAll (qs ++ [q]) = .ok (answers ++ [answer], a'') := by
  induction qs generalizing a answers with
  | nil =>
    cases h
    rw [List.nil_append, serveAll, hlast]
    rfl
  | cons first qs ih =>
    rw [serveAll] at h
    obtain ⟨⟨answer', a₁⟩, hfirst, h⟩ := bind_eq_ok_iff.mp h
    obtain ⟨⟨answers', a₂⟩, hrest, h⟩ := bind_eq_ok_iff.mp h
    cases h
    rw [List.cons_append, serveAll, hfirst]
    simp only [ok_bind, ih hrest]
    rfl

end Arena

end RainCheck

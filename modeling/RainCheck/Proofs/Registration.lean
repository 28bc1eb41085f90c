import Mathlib.Data.List.Nodup
import RainCheck.Compile
import RainCheck.Proofs.Checking

/-!
# Registered modules

The first phase makes the names of a module known (`Registered`).
* A name belongs to the first declaration that has it; later ones are refused.
* The functions of the module frame are `moduleFunctions`, and the names of its types mean what `moduleScope` says.
* An exported name is a name of the module, so exporting it never fails.

When all names are registered the store is sound.
-/

namespace RainCheck

/-- What the names of types mean in a module: a struct that has the name first, or a primitive type. -/
def moduleScope (decls : List Decl) : TypeScope := fun name =>
  match decls.find? (·.name = name) with
  | some (.struct d) => some (some d)
  | _ => (Frames.builtinTypes.lookup name).map fun _ => none

/-! ### Functions of a module -/

section

variable {seen : List String} {decls : List Decl} {d : Decl}

private theorem functionsBehind_append (seen : List String) (decls : List Decl) (d : Decl) :
    functionsBehind seen (decls ++ [d]) =
      functionsBehind seen decls ++ if d.name ∈ seen ∨ ∃ e ∈ decls, e.name = d.name then [] else d.variables := by
  induction decls generalizing seen with
  | nil => simp [functionsBehind]
  | cons e decls ih =>
    simp only [List.cons_append, functionsBehind]
    by_cases he : e.name ∈ seen
    · rw [if_pos he, if_pos he, ih]
      congr 1
      refine if_congr ⟨?_, ?_⟩ rfl rfl
      · rintro (h | ⟨e', he', h⟩)
        · exact .inl h
        · exact .inr ⟨e', List.mem_cons_of_mem _ he', h⟩
      · rintro (h | ⟨e', he', h⟩)
        · exact .inl h
        · rcases List.mem_cons.mp he' with rfl | he'
          · exact .inl (h ▸ he)
          · exact .inr ⟨e', he', h⟩
    · rw [if_neg he, if_neg he, ih, List.append_assoc]
      congr 2
      refine if_congr ?_ rfl rfl
      simp only [List.mem_cons, exists_eq_or_imp, or_assoc]
      rw [or_left_comm, eq_comm]

/-- A function of the module is the first declaration of its name. -/
theorem mem_functionsBehind {v : Variable} (h : v ∈ functionsBehind seen decls) :
    v.name ∉ seen ∧ ∃ f, v = f.header.binding ∧ decls.find? (·.name = v.name) = some (.function f) := by
  induction decls generalizing seen with
  | nil => cases h
  | cons e decls ih =>
    rw [functionsBehind] at h
    split at h
    · rename_i he
      obtain ⟨hseen, f, hf, hfind⟩ := ih h
      have hne : e.name ≠ v.name := fun heq => hseen (heq ▸ he)
      exact ⟨hseen, f, hf, by simp [hne, hfind]⟩
    · rename_i he
      rcases List.mem_append.mp h with h | h
      · cases e with
        | struct => cases h
        | function f =>
          obtain rfl := List.mem_singleton.mp h
          refine ⟨he, f, rfl, ?_⟩
          rw [List.find?_cons_of_pos]
          exact decide_eq_true rfl
      · obtain ⟨hseen, f, hf, hfind⟩ := ih h
        have hne : e.name ≠ v.name := fun heq => hseen (heq ▸ List.mem_cons_self)
        exact ⟨fun hmem => hseen (List.mem_cons_of_mem _ hmem), f, hf, by simp [hne, hfind]⟩

/-- A function that has its name can be called by it. -/
theorem binding_mem_functionsBehind {f : FunctionDecl} (hseen : f.header.name ∉ seen)
    (hfind : decls.find? (·.name = f.header.name) = some (.function f)) :
    f.header.binding ∈ functionsBehind seen decls := by
  induction decls generalizing seen with
  | nil => cases hfind
  | cons e decls ih =>
    rw [List.find?_cons] at hfind
    rw [functionsBehind]
    split at hfind
    · cases hfind
      rw [if_neg (show (Decl.function f).name ∉ seen from hseen)]
      exact List.mem_cons_self
    · rename_i hother
      have hne : e.name ≠ f.header.name := of_decide_eq_false hother
      split
      · exact ih hseen hfind
      · refine List.mem_append_right _ (ih ?_ hfind)
        simp [hseen, hne.symm]

private theorem nodup_functionsBehind (seen : List String) (decls : List Decl) :
    ((functionsBehind seen decls).map (·.name)).Nodup := by
  induction decls generalizing seen with
  | nil => exact List.nodup_nil
  | cons e decls ih =>
    rw [functionsBehind]
    split
    · exact ih seen
    · cases e with
      | struct d => exact ih _
      | function f =>
        refine List.nodup_cons.mpr ⟨fun hmem => ?_, ih _⟩
        obtain ⟨v, hv, hname⟩ := List.mem_map.mp hmem
        exact (mem_functionsBehind hv).1 (hname ▸ List.mem_cons_self)

end

/-! ### The store of a registered module -/

theorem Frame.has_addValue (f : Frame) (key : String) (v : Variable) (name : String) :
    Frame.has { f with values := f.values ++ [(key, v)] } name = true ↔ f.has name = true ∨ key = name := by
  simp only [Frame.has, Frame.findVariable, Frame.findType, List.lookup_append, Option.isSome_or, Bool.or_eq_true,
    List.lookup_cons, List.lookup_nil]
  by_cases hname : name = key
  · simp [hname]
  · have hne : (name == key) = false := by simpa using hname
    simp [hne, Ne.symm hname]

theorem Frame.has_addType (f : Frame) (key : String) (t : TypeId) (name : String) :
    Frame.has { f with types := f.types ++ [(key, t)] } name = true ↔ f.has name = true ∨ key = name := by
  simp only [Frame.has, Frame.findVariable, Frame.findType, List.lookup_append, Option.isSome_or, Bool.or_eq_true,
    List.lookup_cons, List.lookup_nil]
  by_cases hname : name = key
  · simp [hname]
  · have hne : (name == key) = false := by simpa using hname
    simp [hne, Ne.symm hname]

theorem Frame.findType_addType (f : Frame) (key : String) (t : TypeId) (name : String) :
    Frame.findType { f with types := f.types ++ [(key, t)] } name =
      (f.findType name).or (if key = name then some t else none) := by
  simp only [Frame.findType, List.lookup_append, List.lookup_cons, List.lookup_nil]
  by_cases hname : name = key
  · simp [hname]
  · have hne : (name == key) = false := by simpa using hname
    simp [hne, Ne.symm hname]

/-- A declaration is the first one of its name. -/
def Decl.Owns (decls : List Decl) (d : Decl) : Prop := decls.find? (·.name = d.name) = some d

theorem Decl.Owns.mem {decls : List Decl} {d : Decl} (h : d.Owns decls) : d ∈ decls := List.mem_of_find?_eq_some h

/-- Later declarations do not take a name away. -/
theorem Decl.Owns.append {decls : List Decl} {d : Decl} (h : d.Owns decls) (behind : List Decl) :
    d.Owns (decls ++ behind) := by
  unfold Owns at h ⊢
  rw [List.find?_append, h]
  rfl

/-- The names of the declarations `done` are registered, in the frame `m` of the module and the frame `x` for others. -/
structure Registered (done : List Decl) (m x : Frame) (s : Store) : Prop where
  frames : s.frames = ⟨[{ types := Frames.builtinTypes }, m, x]⟩
  outer : m.outer = [FrameId.builtin]
  exportedOuter : x.outer = []
  primitives : ∀ id name, s.typeAt? id = some (.primitive name) ↔ Types.primitives[id]? = some name
  entries : ∀ id e, s.typeAt? id = some e →
    (∃ name, e = .primitive name) ∨ ∃ d, .struct d ∈ done ∧ e = .struct d .unresolved
  idle : s.Idle
  values : m.values = named (moduleFunctions done)
  known : ∀ p ∈ m.types, s.Known p.2
  has : ∀ name, m.has name = true ↔ ∃ d ∈ done, d.name = name
  structNames : ∀ name d, done.find? (·.name = name) = some (.struct d) → ∃ t, m.findType name = some t ∧
    s.typeAt? t = some (.struct d .unresolved) ∧ s.structs.find? d.span = some ⟨t, FrameId.module⟩
  otherNames : ∀ name, (∀ d, done.find? (·.name = name) ≠ some (.struct d)) → m.findType name = none
  exportedTypes : ∀ p ∈ x.types, p ∈ m.types
  exportedValues : ∀ p ∈ x.values, p ∈ m.values
  exportedOnce : (x.values.map (·.1)).Nodup
  functions : ∀ key, s.function key = {} ∨
    s.function key = { variableType := some .empty } ∧ ∃ f, (Decl.function f).Owns done ∧ f.header.span = key
  functionNames : ∀ name f, done.find? (·.name = name) = some (.function f) →
    s.function f.header.span = { variableType := some .empty }
  structs : ∀ key r, s.structs.find? key = some r → ∃ d, (Decl.struct d).Owns done ∧ d.span = key
  once : ∀ id id' e, s.typeAt? id = some e → s.typeAt? id' = some e → e.struct? = none → id = id'
  recorded : (done.map Decl.name).Nodup → ∀ id d state, s.typeAt? id = some (.struct d state) →
    s.structs.find? d.span = some ⟨id, FrameId.module⟩

theorem registered_initial : Registered [] { outer := [FrameId.builtin] } {} {} where
  frames := rfl
  outer := rfl
  exportedOuter := rfl
  primitives id name := by
    change (Types.primitives.map TypeEntry.primitive)[id]? = some (.primitive name) ↔ _
    simp
  entries id e h := by
    have hentry : (Types.primitives.map TypeEntry.primitive)[id]? = some e := h
    rw [List.getElem?_map] at hentry
    obtain ⟨name, -, rfl⟩ := Option.map_eq_some_iff.mp hentry
    exact .inl ⟨name, rfl⟩
  idle := rfl
  values := rfl
  known := by simp
  has := by simp [Frame.has, Frame.findVariable, Frame.findType]
  structNames := by simp
  otherNames := by simp [Frame.findType]
  exportedTypes := by simp
  exportedValues := by simp
  exportedOnce := List.nodup_nil
  functions key := .inl rfl
  functionNames := by simp
  structs key r h := by cases h
  once id id' e h h' _ := by
    have hnodup : (Types.primitives.map TypeEntry.primitive).Nodup :=
      (List.nodup_map_iff fun _ _ => TypeEntry.primitive.inj).mpr (by decide)
    exact (List.getElem?_inj (List.getElem?_eq_some_iff.mp h).1 hnodup).mp (h.trans h'.symm)
  recorded _ id d state h := by
    have hentry : (Types.primitives.map TypeEntry.primitive)[id]? = some (.struct d state) := h
    rw [List.getElem?_map] at hentry
    obtain ⟨name, -, heq⟩ := Option.map_eq_some_iff.mp hentry
    cases heq

/-! ### One more declaration -/

section

variable {done : List Decl} {m x : Frame} {s : Store} {d : Decl}

/-- A declaration whose name is taken changes no name. -/
theorem find?_taken (htaken : ∃ e ∈ done, e.name = d.name) (name : String) :
    (done ++ [d]).find? (·.name = name) = done.find? (·.name = name) := by
  rw [List.find?_append]
  cases hfind : done.find? (·.name = name) with
  | some e => rfl
  | none =>
    obtain ⟨e, he, hname⟩ := htaken
    have hne : e.name ≠ name := by simpa using List.find?_eq_none.mp hfind e he
    simp [← hname, hne]

/-- A name that is taken occurs twice. -/
theorem not_nodup_of_taken (htaken : ∃ e ∈ done, e.name = d.name) (behind : List Decl) :
    ¬((done ++ d :: behind).map Decl.name).Nodup := by
  intro hnodup
  obtain ⟨e, he, hname⟩ := htaken
  rw [List.map_append, List.map_cons] at hnodup
  exact (List.nodup_append.mp hnodup).2.2 _ (List.mem_map_of_mem he) _ List.mem_cons_self hname

private theorem find?_absent {name : String} (hnew : ∀ e ∈ done, e.name ≠ name) : done.find? (·.name = name) = none :=
  List.find?_eq_none.mpr fun e he => by simpa using hnew e he

/-- A declaration whose name is new. -/
theorem find?_new (hnew : ∀ e ∈ done, e.name ≠ d.name) : (done ++ [d]).find? (·.name = d.name) = some d := by
  rw [List.find?_append, find?_absent hnew]
  simp

theorem find?_other {name : String} (hne : d.name ≠ name) :
    (done ++ [d]).find? (·.name = name) = done.find? (·.name = name) := by
  simp [List.find?_append, hne]

private theorem moduleFunctions_taken (htaken : ∃ e ∈ done, e.name = d.name) :
    moduleFunctions (done ++ [d]) = moduleFunctions done := by
  rw [moduleFunctions, functionsBehind_append, if_pos (.inr htaken), List.append_nil]
  rfl

private theorem moduleFunctions_new (hnew : ∀ e ∈ done, e.name ≠ d.name) :
    moduleFunctions (done ++ [d]) = moduleFunctions done ++ d.variables := by
  rw [moduleFunctions, functionsBehind_append, if_neg]
  · rfl
  · rintro (h | ⟨e, he, hname⟩)
    · cases h
    · exact hnew e he hname

/-- A store with one more struct among its types. -/
def Store.addStruct (s : Store) (d : StructDecl) : Store := s.addType (.struct d .unresolved)

/-- A store with one more name for a type in a frame. -/
def Store.addTypeName (s : Store) (fr : FrameId) (f : Frame) (name : String) (t : TypeId) : Store :=
  { s with frames := ⟨s.frames.frames.set fr { f with types := f.types ++ [(name, t)] }⟩ }

/-- A store with a record for one more struct. -/
def Store.withStruct (s : Store) (key : Span) (r : StructRecord) : Store := { s with structs := s.structs.insert key r }

private theorem Store.known_addStruct {d : StructDecl} {id : TypeId} (h : s.Known id) : (s.addStruct d).Known id := by
  obtain ⟨e, he, hregistered⟩ := h
  exact ⟨e, entry_addType.mpr (.inl he), hregistered⟩

theorem Store.once_addStruct {d : StructDecl}
    (h : ∀ id id' e, s.typeAt? id = some e → s.typeAt? id' = some e → e.struct? = none → id = id') (id id' : TypeId)
    (e : TypeEntry) (he : (s.addStruct d).typeAt? id = some e) (he' : (s.addStruct d).typeAt? id' = some e)
    (hstruct : e.struct? = none) : id = id' := by
  rcases entry_addType.mp he with he | ⟨-, rfl⟩
  · rcases entry_addType.mp he' with he' | ⟨-, rfl⟩
    · exact h id id' e he he' hstruct
    · cases hstruct
  · cases hstruct

namespace Registered

/-- The names of the declarations before are distinct, if all are. -/
private theorem nodup_before {more : List Decl} (h : ((done ++ more).map Decl.name).Nodup) :
    (done.map Decl.name).Nodup := by
  rw [List.map_append] at h
  exact h.of_append_left

variable (h : Registered done m x s)
include h

theorem frame_module : s.frame? FrameId.module = some m := by
  unfold Store.frame?
  rw [h.frames]
  rfl

theorem frame_exported : s.frame? FrameId.exported = some x := by
  unfold Store.frame?
  rw [h.frames]
  rfl

theorem has_taken : m.has d.name = true ↔ ∃ e ∈ done, e.name = d.name := h.has d.name

/-- An exported name is one of the module. -/
private theorem has_of_exported {name : String} (hx : x.has name = true) : m.has name = true := by
  simp only [Frame.has, Bool.or_eq_true, Option.isSome_iff_exists, Frame.findVariable, Frame.findType] at hx ⊢
  rcases hx with ⟨v, hv⟩ | ⟨t, ht⟩
  · left
    have hmem := h.exportedValues _ (Store.mem_of_lookup hv)
    cases hlookup : m.values.lookup name with
    | some w => exact ⟨w, rfl⟩
    | none => simpa using List.lookup_eq_none_iff.mp hlookup _ hmem
  · right
    have hmem := h.exportedTypes _ (Store.mem_of_lookup ht)
    cases hlookup : m.types.lookup name with
    | some w => exact ⟨w, rfl⟩
    | none => simpa using List.lookup_eq_none_iff.mp hlookup _ hmem

private theorem entries_append {id : TypeId} {e : TypeEntry} (he : s.typeAt? id = some e) (more : List Decl) :
    (∃ name, e = .primitive name) ∨ ∃ d, .struct d ∈ done ++ more ∧ e = .struct d .unresolved := by
  rcases h.entries id e he with hprimitive | ⟨d, hd, heq⟩
  · exact .inl hprimitive
  · exact .inr ⟨d, List.mem_append_left _ hd, heq⟩

private theorem functions_append (key : Span) (more : List Decl) : s.function key = {} ∨
    s.function key = { variableType := some .empty } ∧
      ∃ f, (Decl.function f).Owns (done ++ more) ∧ f.header.span = key := by
  rcases h.functions key with hnew | ⟨hkey, f, hf, hspan⟩
  · exact .inl hnew
  · exact .inr ⟨hkey, f, hf.append _, hspan⟩

/-- A declaration whose name is taken. -/
private theorem taken (htaken : ∃ e ∈ done, e.name = d.name) : Registered (done ++ [d]) m x s := by
  have hfind := find?_taken htaken
  exact
    { h with
      entries := fun id e he => h.entries_append he _
      values := by rw [h.values, moduleFunctions_taken htaken]
      has := fun name => by
        rw [h.has name]
        simp only [List.mem_append, List.mem_singleton, or_and_right, exists_or, exists_eq_left]
        refine ⟨.inl, fun hname => hname.elim id fun hname => ?_⟩
        obtain ⟨e, he, hname'⟩ := htaken
        exact ⟨e, he, hname'.trans hname⟩
      structNames := fun name d hd => h.structNames name d (hfind name ▸ hd)
      otherNames := fun name hd => h.otherNames name fun d => hfind name ▸ hd d
      functions := fun key => h.functions_append key _
      functionNames := fun name g hg => h.functionNames name g (hfind name ▸ hg)
      structs := fun key r hr => (h.structs key r hr).imp fun _ hd => ⟨hd.1.append _, hd.2⟩
      recorded := fun hnodup => h.recorded (nodup_before hnodup) }

/-- A type is added for a struct of the module whose name is taken. -/
private theorem addStruct {d : StructDecl} (hd : .struct d ∈ done) (hrepeated : ¬(done.map Decl.name).Nodup) :
    Registered done m x (s.addStruct d) :=
  { h with
    primitives := fun id name => (Store.primitive_addType (by simp)).trans (h.primitives id name)
    entries := fun id e he => by
      rcases Store.entry_addType.mp he with he | ⟨-, rfl⟩
      · exact h.entries id e he
      · exact .inr ⟨d, hd, rfl⟩
    known := fun p hp => Store.known_addStruct (h.known p hp)
    structNames := fun name d hd => by
      obtain ⟨t, ht, he, hr⟩ := h.structNames name d hd
      exact ⟨t, ht, Store.entry_addType.mpr (.inl he), hr⟩
    once := Store.once_addStruct h.once
    recorded := fun hnodup => absurd hnodup hrepeated }

/-- The name of a new function is declared in the module. -/
private theorem newFunction {f : FunctionDecl} (hnew : ∀ e ∈ done, e.name ≠ f.header.name) :
    Registered (done ++ [.function f]) { m with values := m.values ++ [(f.header.name, f.header.binding)] } x
      (s.register FrameId.module m f.header) := by
  -- the record of the new function stands at its own place
  have hfunction : ∀ key, (s.register FrameId.module m f.header).function key =
      if key = f.header.span then { variableType := some .empty } else s.function key := fun key =>
    Store.function_withFunction _ key _
  have hname : (Decl.function f).name = f.header.name := rfl
  exact
    { h with
      frames := by
        simp only [Store.register, Store.withFunction, Store.addVariable, h.frames]
        rfl
      entries := fun id e he => h.entries_append he _
      values := by
        rw [moduleFunctions_new hnew, h.values]
        simp [named, Decl.variables, Header.binding]
      has := fun name => by
        simp only [Frame.has_addValue, h.has name, List.mem_append, List.mem_singleton, or_and_right, exists_or,
          exists_eq_left, hname]
      structNames := fun name d hd => by
        by_cases hne : f.header.name = name
        · subst hne
          rw [← hname, find?_new hnew] at hd
          cases hd
        · exact h.structNames name d (find?_other (d := .function f) hne ▸ hd)
      otherNames := fun name hd => h.otherNames name fun d hd' => by
        by_cases hne : f.header.name = name
        · subst hne
          rw [find?_absent hnew] at hd'
          cases hd'
        · exact hd d (by rw [find?_other (d := .function f) hne]; exact hd')
      exportedValues := fun p hp => List.mem_append_left _ (h.exportedValues p hp)
      functions := fun key => by
        rw [hfunction]
        split
        · rename_i heq
          exact .inr ⟨rfl, f, find?_new hnew, heq.symm⟩
        · exact h.functions_append key _
      functionNames := fun name g hg => by
        rw [hfunction]
        split
        · rfl
        · rename_i hspan
          by_cases hne : f.header.name = name
          · subst hne
            rw [← hname, find?_new hnew] at hg
            cases hg
            exact absurd rfl hspan
          · exact h.functionNames name g (find?_other (d := .function f) hne ▸ hg)
      structs := fun key r hr => (h.structs key r hr).imp fun _ hd => ⟨hd.1.append _, hd.2⟩
      recorded := fun hnodup => h.recorded (nodup_before hnodup) }

/-- The name of a new struct is declared in the module. -/
private theorem newStruct {d : StructDecl} (hnew : ∀ e ∈ done, e.name ≠ d.name)
    (hfresh : s.structs.find? d.span = none) :
    Registered (done ++ [.struct d]) { m with types := m.types ++ [(d.name, s.types.size)] } x
      (((s.addStruct d).addTypeName FrameId.module m d.name s.types.size).withStruct d.span
        ⟨s.types.size, FrameId.module⟩) := by
  have hname : (Decl.struct d).name = d.name := rfl
  -- the place of the struct is new, so no record is replaced
  have hold : ∀ key r, s.structs.find? key = some r →
      (s.structs.insert d.span ⟨s.types.size, FrameId.module⟩).find? key = some r := fun key r hr => by
    rw [Records.find?_insert, if_neg, hr]
    rintro rfl
    rw [hfresh] at hr
    cases hr
  have hentry : ∀ id e, s.typeAt? id = some e → (s.addStruct d).typeAt? id = some e := fun id e he =>
    Store.entry_addType.mpr (.inl he)
  have hself : (s.addStruct d).typeAt? s.types.size = some (.struct d .unresolved) :=
    Store.entry_addType.mpr (.inr ⟨rfl, rfl⟩)
  have hselfRecord : (s.structs.insert d.span ⟨s.types.size, FrameId.module⟩).find? d.span =
      some ⟨s.types.size, FrameId.module⟩ := by
    rw [Records.find?_insert, if_pos rfl]
  have hvariables : moduleFunctions (done ++ [.struct d]) = moduleFunctions done := by
    rw [moduleFunctions_new hnew]
    exact List.append_nil _
  exact
    { h with
      frames := by
        simp only [Store.withStruct, Store.addTypeName, Store.addStruct, Store.addType, h.frames]
        rfl
      primitives := fun id name => (Store.primitive_addType (by simp)).trans (h.primitives id name)
      entries := fun id e he => by
        rcases Store.entry_addType.mp he with he | ⟨-, rfl⟩
        · exact h.entries_append he _
        · exact .inr ⟨d, by simp, rfl⟩
      values := by rw [hvariables, h.values]
      known := fun p hp => by
        rcases List.mem_append.mp hp with hp | hp
        · obtain ⟨e, he, hregistered⟩ := h.known p hp
          exact ⟨e, hentry p.2 e he, fun decl state heq => hold _ _ (hregistered decl state heq)⟩
        · obtain rfl := List.mem_singleton.mp hp
          refine ⟨_, hself, fun decl state heq => ?_⟩
          cases heq
          exact hselfRecord
      has := fun name => by
        simp only [Frame.has_addType, h.has name, List.mem_append, List.mem_singleton, or_and_right, exists_or,
          exists_eq_left, hname]
      structNames := fun name e he => by
        by_cases hne : d.name = name
        · subst hne
          rw [← hname, find?_new hnew] at he
          cases he
          have hnone : m.findType d.name = none := h.otherNames d.name fun e he' => by
            rw [find?_absent hnew] at he'
            cases he'
          exact ⟨s.types.size, by rw [Frame.findType_addType, hnone, if_pos rfl]; rfl, hself, hselfRecord⟩
        · obtain ⟨t, ht, hentry', hr⟩ := h.structNames name e (by rwa [find?_other (d := .struct d) hne] at he)
          exact ⟨t, by rw [Frame.findType_addType, ht]; rfl, hentry t _ hentry', hold _ _ hr⟩
      otherNames := fun name hd => by
        have hne : d.name ≠ name := by
          rintro rfl
          exact hd d (by rw [← hname, find?_new hnew])
        rw [Frame.findType_addType, if_neg hne, Option.or_none]
        exact h.otherNames name fun e he => hd e (by rw [find?_other (d := .struct d) hne]; exact he)
      exportedTypes := fun p hp => List.mem_append_left _ (h.exportedTypes p hp)
      functions := fun key => h.functions_append key _
      functionNames := fun name g hg => by
        by_cases hne : d.name = name
        · subst hne
          rw [← hname, find?_new hnew] at hg
          cases hg
        · exact h.functionNames name g (by rwa [find?_other (d := .struct d) hne] at hg)
      structs := fun key r hr => by
        by_cases hkey : key = d.span
        · exact ⟨d, find?_new hnew, hkey.symm⟩
        · have hr : (s.structs.insert d.span ⟨s.types.size, FrameId.module⟩).find? key = some r := hr
          rw [Records.find?_insert, if_neg hkey] at hr
          exact (h.structs key r hr).imp fun _ hd => ⟨hd.1.append _, hd.2⟩
      once := Store.once_addStruct h.once
      recorded := fun hnodup id e state he => by
        rcases Store.entry_addType.mp he with he | ⟨rfl, heq⟩
        · exact hold _ _ (h.recorded (nodup_before hnodup) id e state he)
        · cases heq
          exact hselfRecord }

/-- A variable of the module is exported. -/
private theorem exportVariable {v : Variable} (hv : (v.name, v) ∈ m.values) (hnew : x.has v.name = false) :
    Registered done m { x with values := x.values ++ [(v.name, v)] } (s.addVariable FrameId.exported x v) :=
  { h with
    frames := by
      simp only [Store.addVariable, h.frames]
      rfl
    exportedValues := fun p hp => by
      rcases List.mem_append.mp hp with hp | hp
      · exact h.exportedValues p hp
      · rwa [List.mem_singleton.mp hp]
    exportedOnce := by
      simp only [List.map_append, List.map_cons, List.map_nil]
      refine List.nodup_append.mpr ⟨h.exportedOnce, by simp, fun a ha b hb heq => ?_⟩
      rw [List.mem_singleton.mp hb] at heq
      exact Store.not_mem_of_has hnew (heq ▸ ha) }

/-- A type of the module is exported. -/
private theorem exportType {name : String} {t : TypeId} (ht : (name, t) ∈ m.types) :
    Registered done m { x with types := x.types ++ [(name, t)] } (s.addTypeName FrameId.exported x name t) :=
  { h with
    frames := by
      simp only [Store.addTypeName, h.frames]
      rfl
    exportedTypes := fun p hp => by
      rcases List.mem_append.mp hp with hp | hp
      · exact h.exportedTypes p hp
      · rwa [List.mem_singleton.mp hp] }

end Registered

end

/-! ### The first phase -/

namespace Action

variable {s : Store} {fr : FrameId} {f : Frame}

theorem ends_declareType {done : Unit → Store → Prop} {refused : Diagnostic → Store → Prop} {name : String} {t : TypeId}
    {span : Span} (hf : s.frame? fr = some f) :
    (declareType fr name t span).Ends s done refused ↔
      if f.has name then refused ⟨span, .duplicateDeclaration name⟩ s else done () (s.addTypeName fr f name t) := by
  have hget : s.frames.get fr = .ok f := itemAt_eq_ok_iff.mpr hf
  have hdeclare : s.frames.declareType fr name t span =
      if f.has name then .error (.refused ⟨span, .duplicateDeclaration name⟩)
      else .ok (s.addTypeName fr f name t).frames := by
    simp [Frames.declareType, hget, Stop.lift, Store.addTypeName]
  unfold declareType updateFrames
  rw [ends_bind, ends_get]
  dsimp only
  rw [hdeclare]
  cases f.has name <;> rfl

end Action

section

open RainCheck.Action

variable {done : List Decl} {m x : Frame} {s : Store} {d : Decl}

theorem Registered.exported_new (h : Registered done m x s) {name : String} (hnew : m.has name = false) :
    x.has name = false := by
  cases hx : x.has name with
  | false => rfl
  | true =>
    rw [h.has_of_exported hx] at hnew
    cases hnew

/-- A name that is new in the module is that of no declaration before. -/
theorem Registered.ne_of_new (h : Registered done m x s) {name : String} (hnew : m.has name = false) :
    ∀ e ∈ done, e.name ≠ name := fun e he hname => by
  rw [(h.has name).mpr ⟨e, he, hname⟩] at hnew
  cases hnew

/-- Whether a declaration is exported. -/
def Decl.exported : Decl → Bool
  | .struct d => d.exported
  | .function f => f.header.exported

/-- A frame in which a declaration is made known, a struct as the given type. -/
def Frame.enroll (f : Frame) (t : TypeId) : Decl → Frame
  | .struct d => { f with types := f.types ++ [(d.name, t)] }
  | .function g => { f with values := f.values ++ [(g.header.name, g.header.binding)] }

/-- A declaration gets its name in the module, and for others if it is exported. -/
structure Enrolls (done : List Decl) (d : Decl) (m x : Frame) (s : Store) (t : TypeId) (s' : Store) : Prop where
  new : m.has d.name = false
  registered : Registered (done ++ [d]) (m.enroll t d) (if d.exported then x.enroll t d else x) s'
  entries : ∀ id e, s.typeAt? id = some e → s'.typeAt? id = some e
  own : ∀ e, d = .struct e → s'.typeAt? t = some (.struct e .unresolved)

/-- A declaration does not get its name, which is taken. -/
structure Rejects (done : List Decl) (d : Decl) (m x : Frame) (s : Store) (why : Diagnostic) (s' : Store) : Prop where
  taken : m.has d.name = true
  why_eq : why = ⟨d.span, .duplicateDeclaration d.name⟩
  registered : Registered (done ++ [d]) m x s'
  entries : ∀ id e, s.typeAt? id = some e → s'.typeAt? id = some e

private theorem enrolls_function {f : FunctionDecl} (h : Registered done m x s)
    (hfresh : s.function f.header.span = {}) :
    (registerFunction FrameId.module f.header).Ends s (fun _ s' => ∃ t, Enrolls done (.function f) m x s t s')
      fun why s' => Rejects done (.function f) m x s why s' := by
  unfold registerFunction
  rw [ends_bind, ends_get, hfresh]
  simp only [Option.isSome_none, Bool.false_eq_true, if_false]
  rw [ends_bind, ends_declare h.frame_module]
  cases hhas : m.has f.header.binding.name with
  | true => exact ⟨hhas, rfl, h.taken ((h.has_taken (d := .function f)).mp hhas), fun _ _ he => he⟩
  | false =>
    have hrecord : (s.addVariable FrameId.module m f.header.binding).function f.header.span = {} := hfresh
    have hregistered := h.newFunction (h.ne_of_new hhas)
    have hexported : x.has f.header.binding.name = false := h.exported_new hhas
    simp only [Bool.false_eq_true, if_false, ends_bind, ends_updateFunction, hrecord]
    split
    · rename_i hyes
      change (declare FrameId.exported f.header.binding).Ends (s.register FrameId.module m f.header) _ _
      rw [ends_declare hregistered.frame_exported, hexported]
      have hbehind := hregistered.exportVariable (List.mem_append_right _ List.mem_cons_self) hexported
      exact ⟨TypeId.void, hhas, (if_pos (c := (Decl.function f).exported = true) hyes).symm ▸ hbehind,
        fun _ _ he => he, fun _ heq => by cases heq⟩
    · rename_i hno
      exact ⟨TypeId.void, hhas, (if_neg (c := (Decl.function f).exported = true) hno).symm ▸ hregistered,
        fun _ _ he => he, fun _ heq => by cases heq⟩

private theorem enrolls_struct {d : StructDecl} (h : Registered done m x s) (hfresh : s.structs.find? d.span = none) :
    (registerStruct FrameId.module d).Ends s (fun _ s' => ∃ t, Enrolls done (.struct d) m x s t s')
      fun why s' => Rejects done (.struct d) m x s why s' := by
  have hmodule : (s.addStruct d).frame? FrameId.module = some m := h.frame_module
  have hentries : ∀ id e, s.typeAt? id = some e → (s.addStruct d).typeAt? id = some e :=
    fun _ _ he => Store.entry_addType.mpr (.inl he)
  have hown : ∀ e, Decl.struct d = .struct e → (s.addStruct d).typeAt? s.types.size = some (.struct e .unresolved) := by
    rintro _ ⟨⟩
    exact Store.entry_addType.mpr (.inr ⟨rfl, rfl⟩)
  unfold registerStruct
  rw [ends_bind, ends_get, hfresh]
  simp only [Option.isSome_none, Bool.false_eq_true, if_false]
  rw [ends_bind, ends_updateTypes, ends_bind]
  change (declareType _ _ s.types.size _).Ends (s.addStruct d) _ _
  rw [ends_declareType hmodule]
  cases hhas : m.has d.name with
  | true =>
    have htaken := (h.has_taken (d := .struct d)).mp hhas
    exact ⟨hhas, rfl, (h.taken htaken).addStruct (by simp) (not_nodup_of_taken htaken []), hentries⟩
  | false =>
    have hregistered := h.newStruct (h.ne_of_new hhas) hfresh
    simp only [Bool.false_eq_true, if_false, ends_bind, ends_modify]
    split
    · rename_i hyes
      refine (ends_declareType hregistered.frame_exported).mpr ?_
      rw [h.exported_new hhas]
      have hbehind := hregistered.exportType (List.mem_append_right _ List.mem_cons_self)
      exact ⟨_, hhas, (if_pos (c := (Decl.struct d).exported = true) hyes).symm ▸ hbehind, hentries, hown⟩
    · rename_i hno
      exact ⟨_, hhas, (if_neg (c := (Decl.struct d).exported = true) hno).symm ▸ hregistered, hentries, hown⟩

/-- A declaration that stands elsewhere than those before it gets its name, or the name is taken. -/
theorem enrolls (h : Registered done m x s) (hapart : ∀ e ∈ done, e.span ≠ d.span) :
    (Phase.register FrameId.module d).Ends s (fun _ s' => ∃ t, Enrolls done d m x s t s')
      fun why s' => Rejects done d m x s why s' := by
  cases d with
  | struct d =>
    refine enrolls_struct h ?_
    cases hr : s.structs.find? d.span with
    | none => rfl
    | some r =>
      obtain ⟨e, he, hspan⟩ := h.structs d.span r hr
      exact absurd hspan (hapart _ he.mem)
  | function f =>
    refine enrolls_function h ?_
    rcases h.functions f.header.span with hnew | ⟨-, g, hg, hspan⟩
    · exact hnew
    · exact absurd hspan (hapart _ hg.mem)

/-- An action registers a declaration, which is refused exactly when its name is taken. -/
def Registers (done : List Decl) (d : Decl) (a : Action Unit) (s : Store) : Prop :=
  a.Ends s (fun _ s' => (∀ e ∈ done, e.name ≠ d.name) ∧ ∃ m x, Registered (done ++ [d]) m x s')
    (fun why s' => (∃ e ∈ done, e.name = d.name) ∧ why = ⟨d.span, .duplicateDeclaration d.name⟩ ∧
      ∃ m x, Registered (done ++ [d]) m x s')

/-- A declaration that stands elsewhere than those before it is registered, or its name is taken. -/
theorem registers (h : Registered done m x s) (hapart : ∀ e ∈ done, e.span ≠ d.span) :
    Registers done d (Phase.register FrameId.module d) s := by
  refine (enrolls h hapart).mono ?_ ?_
  · rintro _ s' ⟨t, henrolls⟩
    exact ⟨h.ne_of_new henrolls.new, _, _, henrolls.registered⟩
  · exact fun why s' hrejects => ⟨h.has_taken.mp hrejects.taken, hrejects.why_eq, _, _, hrejects.registered⟩

end

/-! ### What is on record about a declaration -/

/-- A declaration is registered. -/
def Decl.Noted (s : Store) : Decl → Prop
  | .struct d => (s.structs.find? d.span).isSome = true
  | .function f => (s.function f.header.span).variableType.isSome = true

/-- The name of a declaration belongs to another one, which is registered in its place. -/
structure Decl.Taken (s : Store) (d : Decl) : Prop where
  name : ∃ m, s.frame? FrameId.module = some m ∧ m.has d.name = true
  unnoted : ¬d.Noted s

section

variable {done : List Decl} {m x : Frame} {s : Store} {d : Decl}

theorem Registered.noted (h : Registered done m x s) (hd : d.Owns done) : d.Noted s := by
  cases d with
  | struct d =>
    obtain ⟨t, -, -, hr⟩ := h.structNames d.name d hd
    rw [Decl.Noted, hr]
    rfl
  | function f =>
    rw [Decl.Noted, h.functionNames f.header.name f hd]
    rfl

theorem Registered.owns_of_noted (h : Registered done m x s) (hnoted : d.Noted s) :
    ∃ e : Decl, e.Owns done ∧ e.span = d.span := by
  cases d with
  | struct d =>
    obtain ⟨r, hr⟩ := Option.isSome_iff_exists.mp hnoted
    obtain ⟨e, he, hspan⟩ := h.structs d.span r hr
    exact ⟨_, he, hspan⟩
  | function f =>
    rcases h.functions f.header.span with hnew | ⟨-, g, hg, hspan⟩
    · rw [Decl.Noted, hnew] at hnoted
      cases hnoted
    · exact ⟨_, hg, hspan⟩

/-- Of several declarations of one name only the first one is registered. -/
theorem Registered.of_taken (h : Registered done m x s) (hspans : ∀ e ∈ done, e.span = d.span → e = d) (hd : d ∈ done)
    (hother : ¬d.Owns done) : d.Taken s := by
  refine ⟨⟨m, h.frame_module, (h.has d.name).mpr ⟨d, hd, rfl⟩⟩, fun hnoted => ?_⟩
  obtain ⟨e, he, hspan⟩ := h.owns_of_noted hnoted
  exact hother (hspans e he.mem hspan ▸ he)

end

/-! ### A module whose names are registered -/

/-- The declared types that a mention gives to the function named at a span. -/
def Mention.prototypeAt (key : Span) : Mention → Option Prototype
  | .function header => if header.span = key then some header.prototype else none
  | _ => none

/-- What the declarations of a module list. -/
def moduleListing (decls : List Decl) : Listing where
  prototype key := ((decls.flatMap Decl.mentions).findSome? (Mention.prototypeAt key)).getD ⟨[], none⟩
  isOtherName span := .typeName span ∈ decls.flatMap Decl.mentions ∨ .builtin span ∈ decls.flatMap Decl.mentions
  scope := moduleScope decls
  closed := True
  distinct := (decls.map Decl.name).Nodup

section

variable {decls : List Decl} {m x : Frame} {s : Store}

/-- Mentions that begin at the same place are the same. -/
theorem Parsed.mention_eq (h : Parsed decls) {m n : Mention} (hm : m ∈ decls.flatMap Decl.mentions)
    (hn : n ∈ decls.flatMap Decl.mentions) (hstart : m.start = n.start) : m = n :=
  List.inj_on_of_nodup_map h.apart hm hn hstart

theorem Parsed.lists (h : Parsed decls) : (moduleListing decls).Lists (decls.flatMap Decl.mentions) := by
  intro m hm
  cases m with
  | function header =>
    change ((decls.flatMap Decl.mentions).findSome? (Mention.prototypeAt header.span)).getD _ = _
    cases hfind : (decls.flatMap Decl.mentions).findSome? (Mention.prototypeAt header.span) with
    | none =>
      have hnone := List.findSome?_eq_none_iff.mp hfind _ hm
      simp [Mention.prototypeAt] at hnone
    | some p =>
      obtain ⟨n, hn, hp⟩ := List.exists_of_findSome?_eq_some hfind
      cases n with
      | function header' =>
        obtain ⟨hspan, rfl⟩ : header'.span = header.span ∧ header'.prototype = p := by
          simpa [Mention.prototypeAt] using hp
        have heq := h.mention_eq hm hn (show header.span.start = header'.span.start by rw [hspan])
        cases heq
        rfl
      | _ => cases hp
  | typeName span => exact .inl hm
  | builtin span => exact .inr hm
  | struct | value => trivial

theorem Decl.mentions_sub {d : Decl} (hd : d ∈ decls) : ∀ m ∈ d.mentions, m ∈ decls.flatMap Decl.mentions :=
  fun _ hm => List.mem_flatMap.mpr ⟨d, hd, hm⟩

/-- The declared types of a function are listed. -/
theorem Parsed.lists_header (h : Parsed decls) {f : FunctionDecl} (hf : .function f ∈ decls) :
    (moduleListing decls).Lists f.header.mentions := fun m hm =>
  h.lists m (Decl.mentions_sub hf m (List.mem_append_left _ hm))

/-- If no name is taken twice, the name of a struct means the struct. -/
private theorem moduleScope_of_mem {d : StructDecl} (hnodup : (decls.map Decl.name).Nodup) (hd : .struct d ∈ decls) :
    moduleScope decls d.name = some (some d) := by
  cases hfind : decls.find? (·.name = d.name) with
  | none =>
    have hnone := List.find?_eq_none.mp hfind _ hd
    exact absurd (decide_eq_true (rfl : (Decl.struct d).name = d.name)) hnone
  | some e =>
    have hname : e.name = d.name := by simpa using List.find?_some hfind
    obtain rfl := List.inj_on_of_nodup_map hnodup (List.mem_of_find?_eq_some hfind) hd hname
    rw [moduleScope, hfind]

namespace Registered

variable (h : Registered decls m x s)
include h

private theorem typesSound (hparsed : Parsed decls) : s.TypesSound (moduleListing decls) where
  primitives := h.primitives
  references id inner he := by
    rcases h.entries id _ he with ⟨name, heq⟩ | ⟨d, -, heq⟩ <;> cases heq
  functionTypes id params returns he := by
    rcases h.entries id _ he with ⟨name, heq⟩ | ⟨d, -, heq⟩ <;> cases heq
  listed id decl state he := by
    rcases h.entries id _ he with ⟨name, heq⟩ | ⟨d, hd, heq⟩
    · cases heq
    · cases heq
      exact fun m hm => hparsed.lists m (Decl.mentions_sub hd m hm)
  resolved id decl fields he := by
    rcases h.entries id _ he with ⟨name, heq⟩ | ⟨d, -, heq⟩ <;> cases heq
  written _ id decl fields he := by
    rcases h.entries id _ he with ⟨name, heq⟩ | ⟨d, -, heq⟩ <;> cases heq
  failed id decl why he := by
    rcases h.entries id _ he with ⟨name, heq⟩ | ⟨d, -, heq⟩ <;> cases heq
  resolving id := by
    rw [show s.types.resolving.items = [] from h.idle]
    refine ⟨by simp, ?_⟩
    rintro ⟨decl, he⟩
    rcases h.entries id _ he with ⟨name, heq⟩ | ⟨d, -, heq⟩ <;> cases heq
  path := by
    rw [show s.types.resolving.items = [] from h.idle]
    exact fun _ => .nil
  nodup := by
    rw [show s.types.resolving.items = [] from h.idle]
    exact List.nodup_nil
  held := by
    rw [show s.types.resolving.items = [] from h.idle]
    exact nofun
  once := h.once
  registered hnodup id decl state he := by
    refine ⟨h.recorded hnodup id decl state he, ?_⟩
    rcases h.entries id _ he with ⟨name, heq⟩ | ⟨d, hd, heq⟩
    · cases heq
    · cases heq
      exact moduleScope_of_mem hnodup hd

private theorem functionsSound : s.FunctionsSound (moduleListing decls) where
  signature key sig hsig := by
    rcases h.functions key with heq | ⟨heq, -⟩ <;> rw [heq] at hsig <;> cases hsig
  variableType key t ht := by
    rcases h.functions key with heq | ⟨heq, -⟩
    · rw [heq] at ht
      cases ht
    · rw [heq] at ht ⊢
      cases ht
      exact .inl ⟨rfl, rfl⟩
  failure key why hwhy := by
    rcases h.functions key with heq | ⟨heq, -⟩ <;> rw [heq] at hwhy <;> cases hwhy

theorem frame_cases {fr : FrameId} {f : Frame} (hf : s.frame? fr = some f) :
    (fr = FrameId.builtin ∧ f = { types := Frames.builtinTypes }) ∨ (fr = FrameId.module ∧ f = m) ∨
      (fr = FrameId.exported ∧ f = x) := by
  unfold Store.frame? at hf
  rw [h.frames] at hf
  match fr with
  | 0 => exact .inl ⟨rfl, (Option.some.inj hf).symm⟩
  | 1 => exact .inr (.inl ⟨rfl, (Option.some.inj hf).symm⟩)
  | 2 => exact .inr (.inr ⟨rfl, (Option.some.inj hf).symm⟩)
  | _ + 3 => cases hf

/-- The primitive types have their names. -/
private theorem known_builtin {p : String × TypeId} (hp : p ∈ Frames.builtinTypes) :
    ∃ name, s.typeAt? p.2 = some (.primitive name) := by
  simp only [Frames.builtinTypes, List.mem_cons, List.not_mem_nil, or_false] at hp
  rcases hp with rfl | rfl | rfl | rfl | rfl | rfl <;> exact ⟨_, (h.primitives _ _).mpr rfl⟩

private theorem declares (hparsed : Parsed decls) {name : String} {v : Variable} (hv : (name, v) ∈ m.values) :
    s.Declares (moduleListing decls) v := by
  rw [h.values] at hv
  obtain ⟨w, hw, heq⟩ := List.mem_map.mp hv
  cases heq
  obtain ⟨-, f, rfl, hfind⟩ := mem_functionsBehind hw
  obtain ⟨hprototype, hmentions⟩ := Listing.lists_cons.mp (hparsed.lists_header (List.mem_of_find?_eq_some hfind))
  refine ⟨hprototype, hmentions, ?_⟩
  rw [show f.header.binding.span = f.header.span from rfl, h.functionNames _ f hfind]
  rfl

/-- A name means in the module what the scope says. -/
private theorem means (name : String) : s.Means name (moduleScope decls name) := by
  have hget : s.frames.get FrameId.module = .ok m := itemAt_eq_ok_iff.mpr h.frame_module
  have hbuiltin : s.frames.get FrameId.builtin = .ok { types := Frames.builtinTypes } :=
    itemAt_eq_ok_iff.mpr (by rw [h.frames]; rfl)
  have hlookup : s.frames.lookupType FrameId.module name =
      .ok ((m.findType name).or (Frames.builtinTypes.lookup name)) := by
    simp only [Frames.lookupType, Frames.search, Frames.chain, hget, ok_bind, h.outer, Frames.searchIn, pure_bind]
    cases hm : m.findType name with
    | some t => rfl
    | none =>
      rw [hbuiltin, ok_bind]
      cases hb : Frame.findType { types := Frames.builtinTypes } name with
      | some t =>
        have hb : Frames.builtinTypes.lookup name = some t := hb
        rw [hb]
        rfl
      | none =>
        have hb : Frames.builtinTypes.lookup name = none := hb
        rw [hb]
        rfl
  by_cases hstruct : ∃ d, decls.find? (·.name = name) = some (.struct d)
  · obtain ⟨d, hd⟩ := hstruct
    obtain ⟨t, ht, he, -⟩ := h.structNames name d hd
    rw [moduleScope, hd]
    exact ⟨t, _, by rw [hlookup, ht]; rfl, he, rfl, by rintro ⟨⟩⟩
  · have hscope : moduleScope decls name = (Frames.builtinTypes.lookup name).map fun _ => none := by
      unfold moduleScope
      split
      · rename_i d hd
        exact absurd ⟨d, hd⟩ hstruct
      · rfl
    have hnone : m.findType name = none := h.otherNames name fun d hd => hstruct ⟨d, hd⟩
    rw [hscope]
    cases hb : Frames.builtinTypes.lookup name with
    | none =>
      change s.frames.lookupType FrameId.module name = .ok none
      rw [hlookup, hnone, hb]
      rfl
    | some t =>
      obtain ⟨text, he⟩ := h.known_builtin (Store.mem_of_lookup hb)
      exact ⟨t, _, by rw [hlookup, hnone, hb]; rfl, he, rfl, fun _ => hb⟩

theorem framesSound (hparsed : Parsed decls) : s.FramesSound (moduleListing decls) where
  three_le := by rw [h.frames]; exact Nat.le_refl 3
  outer fr f hf o ho := by
    rcases h.frame_cases hf with ⟨rfl, rfl⟩ | ⟨rfl, rfl⟩ | ⟨rfl, rfl⟩
    · cases ho
    · rw [h.outer, List.mem_singleton] at ho
      exact ho ▸ Nat.zero_lt_one
    · rw [h.exportedOuter] at ho
      cases ho
  types fr f name t hf ht := by
    rcases h.frame_cases hf with ⟨rfl, rfl⟩ | ⟨rfl, rfl⟩ | ⟨rfl, rfl⟩
    · obtain ⟨text, he⟩ := h.known_builtin ht
      exact Store.known_of_entry he rfl
    · exact h.known _ ht
    · exact h.known _ (h.exportedTypes _ ht)
  values fr f name v hf hv := by
    rcases h.frame_cases hf with ⟨rfl, rfl⟩ | ⟨rfl, rfl⟩ | ⟨rfl, rfl⟩
    · cases hv
    · exact h.declares hparsed hv
    · exact h.declares hparsed (h.exportedValues _ hv)
  once fr f hf := by
    rcases h.frame_cases hf with ⟨rfl, rfl⟩ | ⟨rfl, rfl⟩ | ⟨rfl, rfl⟩
    · exact List.nodup_nil
    · rw [h.values, named, List.map_map]
      exact nodup_functionsBehind [] decls
    · exact h.exportedOnce
  scope _ := h.means

/-- When all names are registered, the store is sound. -/
theorem sound (hparsed : Parsed decls) : s.Sound (moduleListing decls) :=
  ⟨h.typesSound hparsed, h.framesSound hparsed, h.functionsSound⟩

/-- The frame of the module has the functions of the module. -/
theorem shows_module : s.Shows FrameId.module [moduleFunctions decls] := by
  refine ⟨m, h.frame_module, ?_, ?_⟩
  · rw [Frame.names, h.values, named, List.map_map]
    refine List.map_congr_left fun v hv => ?_
    obtain ⟨-, f, rfl, -⟩ := mem_functionsBehind hv
    rfl
  · rw [h.outer]
    exact .cons ⟨{ types := Frames.builtinTypes }, by unfold Store.frame?; rw [h.frames]; rfl, rfl⟩ .nil

end Registered

end

end RainCheck

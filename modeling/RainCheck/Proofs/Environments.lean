import Mathlib.Logic.Relation
import RainCheck.Proofs.FrameArena

/-!
# Nested environments

What the frames of a module are after any requests through handles, read off the requests and their answers alone
(`Frames.Record`).
* A handle is the module frame or a frame that was nested in one through a handle.
* The frame around a frame is the one it was nested in; the primitive types are around the module.  The exported names
  are around nothing, and nothing is around them.
* A name is declared where it is asked for if it is new there, as a variable and as a type, and otherwise refused.
* A lookup finds the nearest declaration; so what is declared in a frame is seen from the frames inside it only.

The frames keep up with the record from request to request (`Frames.Follows`), and an arena with the frames.
-/

namespace RainCheck

open Relation (ReflTransGen)

namespace Frames

/-! ### Records -/

/-- Requests with their answers, the latest at the end. -/
abbrev Record := List (Request × Answer)

namespace Record

/-- A frame that can be used. -/
inductive Handle (r : Record) : FrameId → Prop where
  | module : r.Handle FrameId.module
  | nested {outer id : FrameId} : (.nest outer, .frame id) ∈ r → r.Handle id

/-- One frame is the next around another one. -/
inductive Inside (r : Record) : FrameId → FrameId → Prop where
  | module : r.Inside FrameId.module FrameId.builtin
  | nested {outer id : FrameId} : (.nest outer, .frame id) ∈ r → r.Inside id outer

/-- What is declared in a frame, by a request that was not refused. -/
def declaredBy (fr : FrameId) : Request × Answer → Option Binding
  | (q, .declared) => q.target?.bind fun (target, b) => if target = fr then some b else none
  | _ => none

/-- The declarations of a frame, in their order. -/
def bindings (r : Record) (fr : FrameId) : List Binding := r.filterMap (declaredBy fr)

/-- The variables of a frame. -/
def values (r : Record) (fr : FrameId) : List Variable := (r.bindings fr).filterMap Binding.value?

/-- The types of a frame; those with a name everywhere come first. -/
def types (r : Record) (fr : FrameId) : List (String × TypeId) :=
  (if fr = FrameId.builtin then builtinTypes else []) ++ (r.bindings fr).filterMap Binding.type?

/-- The names of a frame, of its variables and of its types. -/
def names (r : Record) (fr : FrameId) : List String := (r.values fr).map (·.name) ++ (r.types fr).map (·.1)

/-- What is found first on the way out of a frame, where every frame has at most one. -/
inductive Nearest {α : Type} (r : Record) (find : FrameId → Option α) : FrameId → Option α → Prop where
  | here {fr : FrameId} {a : α} : find fr = some a → r.Nearest find fr (some a)
  | around {fr outer : FrameId} {a : Option α} :
    find fr = none → r.Inside fr outer → r.Nearest find outer a → r.Nearest find fr a
  | absent {fr : FrameId} : find fr = none → (∀ outer, ¬r.Inside fr outer) → r.Nearest find fr none

end Record

/-- Frames that a module can have after requests through handles, with the record of these. -/
inductive Reached : Record → Frames → Prop where
  | start : Reached [] initial
  | step {r : Record} {fs fs' : Frames} {q : Request} {a : Answer} :
    Reached r fs → r.Handle q.handle → fs.serve q = .ok (a, fs') → Reached (r ++ [(q, a)]) fs'

variable {fs fs' : Frames} {r : Record} {q : Request} {a : Answer} {b : Binding} {fr g outer : FrameId} {f : Frame}

/-! ### What a record gains -/

namespace Record

private theorem handle_concat : Handle (r ++ [(q, a)]) fr ↔ r.Handle fr ∨ ∃ outer, q = .nest outer ∧ a = .frame fr := by
  constructor
  · rintro (_ | hmem)
    · exact .inl .module
    · rcases List.mem_append.mp hmem with hmem | hmem
      · exact .inl (.nested hmem)
      · cases List.mem_singleton.mp hmem
        exact .inr ⟨_, rfl, rfl⟩
  · rintro ((_ | hmem) | ⟨outer, rfl, rfl⟩)
    · exact .module
    · exact .nested (List.mem_append_left _ hmem)
    · exact .nested (List.mem_append_right _ (List.mem_singleton_self _))

private theorem inside_concat :
    Inside (r ++ [(q, a)]) fr outer ↔ r.Inside fr outer ∨ q = .nest outer ∧ a = .frame fr := by
  constructor
  · rintro (_ | hmem)
    · exact .inl .module
    · rcases List.mem_append.mp hmem with hmem | hmem
      · exact .inl (.nested hmem)
      · cases List.mem_singleton.mp hmem
        exact .inr ⟨rfl, rfl⟩
  · rintro ((_ | hmem) | ⟨rfl, rfl⟩)
    · exact .module
    · exact .nested (List.mem_append_left _ hmem)
    · exact .nested (List.mem_append_right _ (List.mem_singleton_self _))

private theorem bindings_concat : bindings (r ++ [(q, a)]) fr = r.bindings fr ++ (declaredBy fr (q, a)).toList := by
  rw [bindings, bindings, List.filterMap_append, List.filterMap_cons, List.filterMap_nil]
  cases declaredBy fr (q, a) <;> rfl

/-- Other answers add nothing to a frame. -/
private theorem bindings_other (ha : a ≠ .declared) (fr : FrameId) : bindings (r ++ [(q, a)]) fr = r.bindings fr := by
  rw [bindings_concat]
  cases a with
  | declared => exact absurd rfl ha
  | frame | refused => exact List.append_nil _

private theorem values_other (ha : a ≠ .declared) (fr : FrameId) : values (r ++ [(q, a)]) fr = r.values fr :=
  congrArg (List.filterMap Binding.value?) (bindings_other ha fr)

private theorem types_other (ha : a ≠ .declared) (fr : FrameId) : types (r ++ [(q, a)]) fr = r.types fr :=
  congrArg (_ ++ List.filterMap Binding.type? ·) (bindings_other ha fr)

private theorem names_other (ha : a ≠ .declared) (fr : FrameId) : names (r ++ [(q, a)]) fr = r.names fr := by
  rw [names, values_other ha, types_other ha, names]

/-- What is declared adds to one frame. -/
private theorem declaredBy_declared (hq : q.target? = some (fr, b)) :
    declaredBy g (q, .declared) = if fr = g then some b else none := by
  rw [declaredBy, hq]
  rfl

private theorem values_declared (hq : q.target? = some (fr, b)) : values (r ++ [(q, .declared)]) g =
    if fr = g then r.values g ++ b.value?.toList else r.values g := by
  rw [values, bindings_concat, declaredBy_declared hq, List.filterMap_append, ← values]
  by_cases heq : fr = g
  · rw [if_pos heq, if_pos heq]
    cases b <;> rfl
  · rw [if_neg heq, if_neg heq]
    exact List.append_nil _

private theorem types_declared (hq : q.target? = some (fr, b)) : types (r ++ [(q, .declared)]) g =
    if fr = g then r.types g ++ b.type?.toList else r.types g := by
  rw [types, bindings_concat, declaredBy_declared hq, List.filterMap_append, ← List.append_assoc, ← types]
  by_cases heq : fr = g
  · rw [if_pos heq, if_pos heq]
    cases b <;> rfl
  · rw [if_neg heq, if_neg heq]
    exact List.append_nil _

private theorem names_declared (hq : q.target? = some (fr, b)) :
    (names (r ++ [(q, .declared)]) fr).Perm (b.name :: r.names fr) := by
  rw [names, values_declared hq, if_pos rfl, types_declared hq, if_pos rfl, names]
  cases b with
  | value v => simp [Binding.value?, Binding.type?, Binding.name]
  | type name id span =>
    simp only [Binding.value?, Binding.type?, Binding.name, Option.toList_none, List.append_nil, Option.toList_some,
      List.map_append, List.map_cons, List.map_nil, ← List.append_assoc]
    exact List.perm_append_singleton _ _

end Record

/-! ### Chains of frames -/

namespace Record

/-- The frames around a frame, nearest first. -/
inductive Around (r : Record) : FrameId → List FrameId → Prop where
  | last {fr : FrameId} : (∀ outer, ¬r.Inside fr outer) → r.Around fr []
  | next {fr outer : FrameId} {rest : List FrameId} :
    r.Inside fr outer → r.Around outer rest → r.Around fr (outer :: rest)

/-- Every frame is inside at most one, which is older than itself, and none is inside that of the exported names. -/
structure Nested (r : Record) (size : Nat) : Prop where
  three_le : 3 ≤ size
  inside : ∀ fr outer, r.Inside fr outer → outer < fr ∧ fr < size ∧ outer ≠ FrameId.exported
  once : ∀ fr outer outer', r.Inside fr outer → r.Inside fr outer' → outer = outer'
  handle : ∀ fr, r.Handle fr → fr < size ∧ fr ≠ FrameId.exported

private theorem nested_nil : Nested [] 3 where
  three_le := Nat.le_refl 3
  inside fr outer hin := by
    rcases hin with _ | hmem
    · decide
    · cases hmem
  once fr outer outer' hin hin' := by
    rcases hin with _ | hmem
    · rcases hin' with _ | hmem
      · rfl
      · cases hmem
    · cases hmem
  handle fr hhandle := by
    rcases hhandle with _ | hmem
    · decide
    · cases hmem

namespace Nested

variable {size : Nat}

/-- Only a new frame comes inside another one. -/
private theorem inside_concat_of_lt (hnew : ∀ fr, a = .frame fr → fr = size) {outer : FrameId} (hfr : fr < size) :
    Inside (r ++ [(q, a)]) fr outer ↔ r.Inside fr outer := by
  rw [inside_concat]
  refine or_iff_left fun hlast => ?_
  exact absurd (hnew fr hlast.2) (Nat.ne_of_lt hfr)

variable (h : r.Nested size)
include h

private theorem other (hother : ∀ fr, a ≠ .frame fr) : Nested (r ++ [(q, a)]) size := by
  have hinside : ∀ {fr outer}, Inside (r ++ [(q, a)]) fr outer → r.Inside fr outer := fun hin =>
    (inside_concat.mp hin).resolve_right fun hlast => hother _ hlast.2
  refine ⟨h.three_le, fun fr outer hin => h.inside fr outer (hinside hin),
    fun fr outer outer' hin hin' => h.once fr outer outer' (hinside hin) (hinside hin'), fun fr hhandle => ?_⟩
  refine h.handle fr ((handle_concat.mp hhandle).resolve_right ?_)
  rintro ⟨outer, -, hanswer⟩
  exact hother fr hanswer

private theorem nest (hfr : r.Handle fr) : Nested (r ++ [(.nest fr, .frame size)]) (size + 1) := by
  obtain ⟨hlt, hne⟩ := h.handle fr hfr
  refine ⟨Nat.le_succ_of_le h.three_le, fun g outer hin => ?_, fun g outer outer' hin hin' => ?_, fun g hhandle => ?_⟩
  · rcases inside_concat.mp hin with hin | ⟨hq, ha⟩
    · obtain ⟨holder, hg, hexported⟩ := h.inside g outer hin
      exact ⟨holder, Nat.lt_succ_of_lt hg, hexported⟩
    · cases hq
      cases ha
      exact ⟨hlt, Nat.lt_succ_self size, hne⟩
  · rcases inside_concat.mp hin with hin | ⟨hq, ha⟩ <;> rcases inside_concat.mp hin' with hin' | ⟨hq', ha'⟩
    · exact h.once g outer outer' hin hin'
    · cases ha'
      exact absurd (h.inside size outer hin).2.1 (Nat.lt_irrefl size)
    · cases ha
      exact absurd (h.inside size outer' hin').2.1 (Nat.lt_irrefl size)
    · cases hq
      cases hq'
      rfl
  · rcases handle_concat.mp hhandle with hhandle | ⟨outer, -, ha⟩
    · exact ⟨Nat.lt_succ_of_lt (h.handle g hhandle).1, (h.handle g hhandle).2⟩
    · cases ha
      exact ⟨Nat.lt_succ_self size, fun heq => absurd (heq ▸ h.three_le) (by decide)⟩

/-- What is around a frame stays around it. -/
private theorem around (hnew : ∀ fr, a = .frame fr → fr = size) {rest : List FrameId} (haround : r.Around fr rest)
    (hfr : fr < size) : Around (r ++ [(q, a)]) fr rest := by
  induction haround with
  | last hlast => exact .last fun outer hin => hlast outer ((inside_concat_of_lt hnew hfr).mp hin)
  | next hin _ ih => exact .next ((inside_concat_of_lt hnew hfr).mpr hin) (ih (Nat.lt_trans (h.inside _ _ hin).1 hfr))

/-- The frames that are met on the way out of a frame are this frame and those around it. -/
private theorem mem_around {rest : List FrameId} (haround : r.Around fr rest) :
    g ∈ fr :: rest ↔ ReflTransGen r.Inside fr g := by
  induction haround with
  | @last fr hlast =>
    rw [List.mem_singleton]
    refine ⟨fun heq => heq ▸ .refl, fun hpath => ?_⟩
    rcases hpath.cases_head with heq | ⟨outer, hin, -⟩
    · exact heq.symm
    · exact absurd hin (hlast outer)
  | @next fr outer rest hin _ ih =>
    rw [List.mem_cons, ih]
    constructor
    · rintro (rfl | hpath)
      · exact .refl
      · exact .head hin hpath
    · intro hpath
      rcases hpath.cases_head with heq | ⟨outer', hin', hpath⟩
      · exact .inl heq.symm
      · exact .inr (h.once fr outer outer' hin hin' ▸ hpath)

/-- On the way out frames get older. -/
private theorem le_of_path (hpath : ReflTransGen r.Inside fr g) : g ≤ fr := by
  induction hpath with
  | refl => exact Nat.le_refl fr
  | tail _ hin ih => exact Nat.le_trans (Nat.le_of_lt (h.inside _ _ hin).1) ih

/-- The exported names are around nothing. -/
private theorem eq_exported (hpath : ReflTransGen r.Inside fr FrameId.exported) : fr = FrameId.exported := by
  rcases hpath.cases_tail with heq | ⟨g, -, hin⟩
  · exact heq.symm
  · exact absurd rfl (h.inside g _ hin).2.2

/-- A way out ends at one place. -/
private theorem nearest_unique {α : Type} {find : FrameId → Option α} {x y : Option α} (hx : r.Nearest find fr x)
    (hy : r.Nearest find fr y) : x = y := by
  induction hx with
  | here hfind =>
    rcases hy with hfind' | ⟨hnone, -, -⟩ | ⟨hnone, -⟩
    · exact hfind.symm.trans hfind'
    · cases hfind.symm.trans hnone
    · cases hfind.symm.trans hnone
  | around hnone hin _ ih =>
    rcases hy with hfind' | ⟨-, hin', hy⟩ | ⟨-, hlast⟩
    · cases hnone.symm.trans hfind'
    · exact ih (h.once _ _ _ hin' hin ▸ hy)
    · exact absurd hin (hlast _)
  | absent hnone hlast =>
    rcases hy with hfind' | ⟨-, hin', -⟩ | -
    · cases hnone.symm.trans hfind'
    · exact absurd hin' (hlast _)
    · rfl

end Nested

end Record

/-! ### Frames that follow a record -/

/-- The frames are those of a record. -/
structure Follows (fs : Frames) (r : Record) : Prop extends r.Nested fs.size where
  frames : ∀ (fr : FrameId) f, fs.frames[fr]? = some f →
    f.values = named (r.values fr) ∧ f.types = r.types fr ∧ r.Around fr f.outer
  fresh : ∀ fr, fs.size ≤ fr → r.bindings fr = []
  nodup : ∀ fr, (r.names fr).Nodup

private theorem follows_initial : initial.Follows [] where
  toNested := Record.nested_nil
  frames fr f hf := by
    have hlast : ∀ {g outer}, g ≠ FrameId.module → ¬Record.Inside [] g outer := by
      rintro g outer hne (_ | hmem)
      · exact hne rfl
      · cases hmem
    rcases fr with _ | _ | _ | fr
    · cases hf
      exact ⟨rfl, rfl, .last fun _ => hlast (by decide)⟩
    · cases hf
      exact ⟨rfl, rfl, .next .module (.last fun _ => hlast (by decide))⟩
    · cases hf
      exact ⟨rfl, rfl, .last fun _ => hlast (by decide)⟩
    · cases hf
  fresh _ _ := rfl
  nodup fr := by
    have hbuiltin : (builtinTypes.map (·.1)).Nodup := by decide
    rw [Record.names, Record.types]
    split
    · simpa [Record.values, Record.bindings] using hbuiltin
    · simp [Record.values, Record.bindings]

private theorem frame_of_lt (hfr : fr < fs.size) : ∃ f, fs.frames[fr]? = some f := ⟨_, List.getElem?_eq_getElem hfr⟩

namespace Follows

variable (h : fs.Follows r)
include h

private theorem has_iff (hf : fs.frames[fr]? = some f) (name : String) : f.has name = true ↔ name ∈ r.names fr := by
  obtain ⟨hvalues, htypes, -⟩ := h.frames fr f hf
  have hnames : f.values.map (·.1) = (r.values fr).map (·.name) := by
    rw [hvalues, named, List.map_map]
    rfl
  rw [Frame.has_iff, hnames, htypes, Record.names]

/-- A refusal is only recorded. -/
private theorem refused (d : Diagnostic) : fs.Follows (r ++ [(q, .refused d)]) where
  toNested := h.other fun _ => nofun
  frames fr f hf := by
    obtain ⟨hv, ht, haround⟩ := h.frames fr f hf
    rw [Record.values_other (by nofun), Record.types_other (by nofun)]
    exact ⟨hv, ht, h.around (fun _ heq => by cases heq) haround (List.getElem?_eq_some_iff.mp hf).1⟩
  fresh fr hfr := (Record.bindings_other (by nofun) fr).trans (h.fresh fr hfr)
  nodup fr := by
    rw [Record.names_other (by nofun)]
    exact h.nodup fr

/-- A declaration comes last in its frame. -/
private theorem declared (hq : q.target? = some (fr, b)) (hf : fs.frames[fr]? = some f) (hnew : b.name ∉ r.names fr) :
    Follows ⟨fs.frames.set fr (f.add b)⟩ (r ++ [(q, .declared)]) := by
  have hsize : size ⟨fs.frames.set fr (f.add b)⟩ = fs.size := List.length_set
  have hlt : fr < fs.size := (List.getElem?_eq_some_iff.mp hf).1
  refine ⟨hsize ▸ h.other fun _ => nofun, fun g f' hf' => ?_, fun g hg => ?_, fun g => ?_⟩
  · dsimp only at hf'
    rw [List.getElem?_set] at hf'
    split at hf'
    · rename_i heq
      subst heq
      obtain ⟨hv, ht, haround⟩ := h.frames fr f hf
      obtain rfl : f.add b = f' := by simpa [show fr < fs.frames.length from hlt] using hf'
      refine ⟨?_, ?_, (f.outer_add b).symm ▸ h.around (fun _ heq => by cases heq) haround hlt⟩
      · rw [Record.values_declared hq, if_pos rfl, Frame.values_add, hv]
        exact List.map_append.symm
      · rw [Record.types_declared hq, if_pos rfl, Frame.types_add, ht]
    · rename_i hne
      obtain ⟨hv, ht, haround⟩ := h.frames g f' hf'
      rw [Record.values_declared hq, if_neg hne, Record.types_declared hq, if_neg hne]
      exact ⟨hv, ht, h.around (fun _ heq => by cases heq) haround (List.getElem?_eq_some_iff.mp hf').1⟩
  · rw [hsize] at hg
    rw [Record.bindings_concat, Record.declaredBy_declared hq, if_neg (Nat.ne_of_lt (Nat.lt_of_lt_of_le hlt hg)),
      h.fresh g hg]
    rfl
  · by_cases heq : fr = g
    · subst heq
      exact (Record.names_declared hq).nodup_iff.mpr (List.nodup_cons.mpr ⟨hnew, h.nodup fr⟩)
    · rw [Record.names, Record.values_declared hq, if_neg heq, Record.types_declared hq, if_neg heq]
      exact h.nodup g

/-- A new frame is empty, and inside the frame it was asked for. -/
private theorem nest (hfr : r.Handle fr) (hf : fs.frames[fr]? = some f) :
    Follows ⟨fs.frames ++ [{ outer := fr :: f.outer }]⟩ (r ++ [(.nest fr, .frame fs.size)]) := by
  have hsize : size ⟨fs.frames ++ [{ outer := fr :: f.outer }]⟩ = fs.size + 1 := List.length_append
  have haround : ∀ {g rest}, r.Around g rest → g < fs.size →
      Record.Around (r ++ [(.nest fr, .frame fs.size)]) g rest := fun haround hg =>
    h.around (fun _ heq => (Answer.frame.inj heq).symm) haround hg
  refine ⟨hsize ▸ h.toNested.nest hfr, fun g f' hf' => ?_, fun g hg => ?_, fun g => ?_⟩
  · rw [Record.values_other (by nofun), Record.types_other (by nofun)]
    rcases Nat.lt_trichotomy g fs.size with hlt | rfl | hlt
    · rw [List.getElem?_append_left hlt] at hf'
      obtain ⟨hv, ht, ha⟩ := h.frames g f' hf'
      exact ⟨hv, ht, haround ha hlt⟩
    · obtain rfl : ({ outer := fr :: f.outer } : Frame) = f' := by simpa [size] using hf'
      have hne : fs.size ≠ FrameId.builtin := fun heq => absurd (heq ▸ h.three_le) (by decide)
      obtain ⟨-, -, ha⟩ := h.frames fr f hf
      refine ⟨by rw [Record.values, h.fresh _ (Nat.le_refl _)]; rfl, ?_, .next (.nested (by simp)) ?_⟩
      · rw [Record.types, if_neg hne, h.fresh _ (Nat.le_refl _)]
        rfl
      · exact haround ha (List.getElem?_eq_some_iff.mp hf).1
    · rw [List.getElem?_eq_none (by rw [List.length_append]; exact hlt)] at hf'
      cases hf'
  · rw [hsize] at hg
    exact (Record.bindings_other (by nofun) g).trans (h.fresh g (Nat.le_of_succ_le hg))
  · rw [Record.names_other (by nofun)]
    exact h.nodup g

/-- The frame of a declaration: that of the handle, or that of the exported names. -/
private theorem target_lt (hq : r.Handle q.handle) (htarget : q.target? = some (fr, b)) : fr < fs.size := by
  cases q with
  | nest => cases htarget
  | declare handle =>
    cases htarget
    exact (h.handle _ hq).1
  | exported handle =>
    cases htarget
    exact Nat.lt_of_lt_of_le (by decide : FrameId.exported < 3) h.three_le

/-- What a request through a handle does. -/
private theorem serve_cases (hq : r.Handle q.handle) :
    (∃ fr f, q = .nest fr ∧ fs.frames[fr]? = some f ∧
      fs.serve q = .ok (.frame fs.size, ⟨fs.frames ++ [{ outer := fr :: f.outer }]⟩)) ∨
    ∃ fr b f, q.target? = some (fr, b) ∧ fs.frames[fr]? = some f ∧
      (b.name ∈ r.names fr ∧ fs.serve q = .ok (.refused ⟨b.span, .duplicateDeclaration b.name⟩, fs) ∨
        b.name ∉ r.names fr ∧ fs.serve q = .ok (.declared, ⟨fs.frames.set fr (f.add b)⟩)) := by
  cases htarget : q.target? with
  | none =>
    cases q with
    | nest fr =>
      obtain ⟨f, hf⟩ := frame_of_lt (h.handle fr hq).1
      exact .inl ⟨fr, f, rfl, hf, serve_nest hf⟩
    | declare | exported => cases htarget
  | some target =>
    obtain ⟨fr, b⟩ := target
    obtain ⟨f, hf⟩ := frame_of_lt (h.target_lt hq htarget)
    refine .inr ⟨fr, b, f, rfl, hf, ?_⟩
    rw [← h.has_iff hf]
    by_cases hhas : f.has b.name = true
    · exact .inl ⟨hhas, serve_refused htarget hf hhas⟩
    · exact .inr ⟨hhas, serve_declared htarget hf hhas⟩

/-- The frames follow the record through every request. -/
private theorem step (hq : r.Handle q.handle) (hserve : fs.serve q = .ok (a, fs')) : fs'.Follows (r ++ [(q, a)]) := by
  obtain ⟨fr, f, rfl, hf, hresult⟩ | ⟨fr, b, f, htarget, hf, ⟨-, hresult⟩ | ⟨hnew, hresult⟩⟩ := h.serve_cases hq
  · cases hresult.symm.trans hserve
    exact h.nest hq hf
  · cases hresult.symm.trans hserve
    exact h.refused _
  · cases hresult.symm.trans hserve
    exact h.declared htarget hf hnew

/-! ### Lookups -/

private theorem searchIn_nearest {α : Type} {find : Frame → Option α} {found : FrameId → Option α}
    (hfind : ∀ (fr : FrameId) f, fs.frames[fr]? = some f → find f = found fr) {rest : List FrameId}
    (haround : r.Around fr rest) (hfr : fr < fs.size) :
    ∃ x, fs.searchIn find (fr :: rest) = .ok x ∧ r.Nearest found fr x := by
  induction haround with
  | @last fr hlast =>
    obtain ⟨f, hf⟩ := frame_of_lt hfr
    rw [searchIn, show fs.get fr = .ok f from itemAt_eq_ok_iff.mpr hf, ok_bind, hfind fr f hf]
    cases hfound : found fr with
    | some x => exact ⟨some x, rfl, .here hfound⟩
    | none => exact ⟨none, rfl, .absent hfound hlast⟩
  | @next fr outer rest hin _ ih =>
    obtain ⟨f, hf⟩ := frame_of_lt hfr
    rw [searchIn, show fs.get fr = .ok f from itemAt_eq_ok_iff.mpr hf, ok_bind, hfind fr f hf]
    cases hfound : found fr with
    | some x => exact ⟨some x, rfl, .here hfound⟩
    | none =>
      obtain ⟨x, hx, hnearest⟩ := ih (Nat.lt_trans (h.inside _ _ hin).1 hfr)
      exact ⟨x, hx, .around hfound hin hnearest⟩

private theorem chain_eq (hfr : fr < fs.size) : ∃ rest, fs.chain fr = .ok (fr :: rest) ∧ r.Around fr rest := by
  obtain ⟨f, hf⟩ := frame_of_lt hfr
  exact ⟨f.outer, by rw [chain, show fs.get fr = .ok f from itemAt_eq_ok_iff.mpr hf]; rfl, (h.frames fr f hf).2.2⟩

/-- A search from a frame gives what is nearest to it. -/
private theorem search_nearest {α : Type} {find : Frame → Option α} {found : FrameId → Option α}
    (hfind : ∀ (fr : FrameId) f, fs.frames[fr]? = some f → find f = found fr) (hfr : fr < fs.size) :
    ∃ x, fs.search find fr = .ok x ∧ ∀ y, r.Nearest found fr y ↔ y = x := by
  obtain ⟨rest, hchain, haround⟩ := h.chain_eq hfr
  obtain ⟨x, hx, hnearest⟩ := h.searchIn_nearest hfind haround hfr
  refine ⟨x, by rw [search, hchain]; exact hx, fun y => ⟨fun hy => ?_, fun heq => heq ▸ hnearest⟩⟩
  exact h.nearest_unique hy hnearest

/-- A request changes only the frame in which it declares something. -/
private theorem frame_kept (hq : r.Handle q.handle) (hserve : fs.serve q = .ok (a, fs')) (hg : g < fs.size)
    (hother : ∀ fr b, q.target? = some (fr, b) → fr ≠ g) : fs'.frames[g]? = fs.frames[g]? := by
  obtain ⟨fr, f, rfl, hf, hresult⟩ | ⟨fr, b, f, htarget, hf, ⟨-, hresult⟩ | ⟨-, hresult⟩⟩ := h.serve_cases hq
  · cases hresult.symm.trans hserve
    exact List.getElem?_append_left hg
  · cases hresult.symm.trans hserve
    rfl
  · cases hresult.symm.trans hserve
    exact List.getElem?_set_ne (hother fr b htarget)

end Follows

private theorem searchIn_congr {α : Type} {find : Frame → Option α} {ids : List FrameId}
    (h : ∀ g ∈ ids, fs'.frames[g]? = fs.frames[g]?) : fs'.searchIn find ids = fs.searchIn find ids := by
  induction ids with
  | nil => rfl
  | cons g ids ih =>
    have hget : fs'.get g = fs.get g := by rw [Frames.get, Frames.get, itemAt, itemAt, h g (by simp)]
    rw [searchIn, searchIn, hget, ih fun o ho => h o (by simp [ho])]

/-- A search gives the same as before, unless something is declared on the way out. -/
private theorem Follows.search_kept {α : Type} {find : Frame → Option α} (h : fs.Follows r) (hq : r.Handle q.handle)
    (hserve : fs.serve q = .ok (a, fs')) (hg : g < fs.size)
    (hother : ∀ fr b, q.target? = some (fr, b) → ¬ReflTransGen r.Inside g fr) :
    fs'.search find g = fs.search find g := by
  obtain ⟨rest, hchain, haround⟩ := h.chain_eq hg
  have hkept : ∀ o ∈ g :: rest, fs'.frames[o]? = fs.frames[o]? := by
    intro o ho
    have hpath := (h.mem_around haround).mp ho
    exact h.frame_kept hq hserve (Nat.lt_of_le_of_lt (h.le_of_path hpath) hg) fun fr b htarget heq =>
      hother fr b htarget (heq ▸ hpath)
  have hchain' : fs'.chain g = .ok (g :: rest) := by
    rw [← hchain, chain, chain, Frames.get, Frames.get, itemAt, itemAt, hkept g (by simp)]
  rw [search, search, hchain, hchain', ok_bind, ok_bind, searchIn_congr hkept]

/-! ### Environments -/

/-- The frames are the environments that a record of requests and answers describes. -/
structure Refines (fs : Frames) (r : Record) : Prop where
  /-- The frames that can be used are there. -/
  handle : ∀ fr, r.Handle fr → fr < fs.size
  /-- A frame in which something is to be nested gets a new frame inside it. -/
  nest : ∀ fr, r.Handle fr → ∃ fs', fs.serve (.nest fr) = .ok (.frame fs.size, fs') ∧ fs'.size = fs.size + 1
  /-- A name that is new in its frame, as a variable and as a type, is declared. -/
  declared : ∀ q fr b, r.Handle q.handle → q.target? = some (fr, b) → b.name ∉ r.names fr →
    ∃ fs', fs.serve q = .ok (.declared, fs')
  /-- Another name is refused where it stands, and nothing changes. -/
  refused : ∀ q fr b, r.Handle q.handle → q.target? = some (fr, b) → b.name ∈ r.names fr →
    fs.serve q = .ok (.refused ⟨b.span, .duplicateDeclaration b.name⟩, fs)
  /-- A variable that is looked up is the nearest one of its name. -/
  lookup : ∀ fr < fs.size, ∀ name, ∃ found, fs.lookup fr name = .ok found ∧
    ∀ v, r.Nearest (fun g => (r.values g).find? (·.name = name)) fr v ↔ v = found
  /-- A type that is looked up is the nearest one of its name. -/
  lookupType : ∀ fr < fs.size, ∀ name, ∃ found, fs.lookupType fr name = .ok found ∧
    ∀ t, r.Nearest (fun g => (r.types g).lookup name) fr t ↔ t = found
  /-- The variables of a frame are those declared in it, in this order. -/
  variablesOf : ∀ fr < fs.size, fs.variablesOf fr = .ok (r.values fr)
  /-- The exported variables and types are those declared as such, in this order. -/
  exported : fs.exports = .ok (r.values FrameId.exported) ∧ fs.exportedTypes = .ok (r.types FrameId.exported)
  /-- No name is declared twice in a frame. -/
  nodup : ∀ fr, (r.names fr).Nodup
  /-- What is declared in a frame changes no lookup from a frame that is not inside it. -/
  apart : ∀ q a fs', r.Handle q.handle → fs.serve q = .ok (a, fs') → ∀ g < fs.size,
    (∀ fr b, q.target? = some (fr, b) → ¬ReflTransGen r.Inside g fr) →
    ∀ name, fs'.lookup g name = fs.lookup g name ∧ fs'.lookupType g name = fs.lookupType g name
  /-- A lookup goes through the frames that a frame is inside. -/
  chain : ∀ fr < fs.size, ∃ ids, fs.chain fr = .ok ids ∧ ∀ g, g ∈ ids ↔ ReflTransGen r.Inside fr g
  /-- The exported names are around no other frame. -/
  alone : ∀ fr, ReflTransGen r.Inside fr FrameId.exported → fr = FrameId.exported

private theorem Follows.variablesOf_eq (h : fs.Follows r) (hfr : fr < fs.size) :
    fs.variablesOf fr = .ok (r.values fr) := by
  obtain ⟨f, hf⟩ := frame_of_lt hfr
  obtain ⟨hvalues, -⟩ := h.frames fr f hf
  rw [variablesOf, show fs.get fr = .ok f from itemAt_eq_ok_iff.mpr hf, ok_bind, hvalues, named, List.map_map]
  exact congrArg Except.ok (List.map_id _)

private theorem Follows.refines (h : fs.Follows r) : fs.Refines r where
  handle fr hfr := (h.handle fr hfr).1
  nest fr hfr := by
    obtain ⟨f, hf⟩ := frame_of_lt (h.handle fr hfr).1
    exact ⟨_, serve_nest hf, List.length_append⟩
  declared q fr b hq htarget hnew := by
    obtain ⟨f, hf⟩ := frame_of_lt (h.target_lt hq htarget)
    exact ⟨_, serve_declared htarget hf (mt (h.has_iff hf b.name).mp hnew)⟩
  refused q fr b hq htarget htaken := by
    obtain ⟨f, hf⟩ := frame_of_lt (h.target_lt hq htarget)
    exact serve_refused htarget hf ((h.has_iff hf b.name).mpr htaken)
  lookup fr hfr name := by
    refine h.search_nearest (fun g f hf => ?_) hfr
    rw [Frame.findVariable, (h.frames g f hf).1, lookup_named]
  lookupType fr hfr name := by
    refine h.search_nearest (fun g f hf => ?_) hfr
    rw [Frame.findType, (h.frames g f hf).2.1]
  variablesOf fr hfr := h.variablesOf_eq hfr
  exported := by
    have hlt : FrameId.exported < fs.size := Nat.lt_of_lt_of_le (by decide : FrameId.exported < 3) h.three_le
    obtain ⟨f, hf⟩ := frame_of_lt hlt
    refine ⟨h.variablesOf_eq hlt, ?_⟩
    rw [exportedTypes, show fs.get FrameId.exported = .ok f from itemAt_eq_ok_iff.mpr hf, ok_bind,
      (h.frames _ f hf).2.1]
    rfl
  nodup := h.nodup
  apart q a fs' hq hserve g hg hother name := ⟨h.search_kept hq hserve hg hother, h.search_kept hq hserve hg hother⟩
  chain fr hfr := by
    obtain ⟨rest, hchain, haround⟩ := h.chain_eq hfr
    exact ⟨fr :: rest, hchain, fun g => h.mem_around haround⟩
  alone fr hpath := h.eq_exported hpath

/-- The frames follow the record of all requests. -/
private theorem Reached.follows (h : Reached r fs) : fs.Follows r := by
  induction h with
  | start => exact follows_initial
  | step _ hq hserve ih => exact ih.step hq hserve

/-- An arena gives the answers of the record, and stays in step with the frames. -/
private theorem Reached.exists_arena (h : Reached r fs) :
    ∃ arena, Arena.initial.serveAll (r.map (·.1)) = .ok (r.map (·.2), arena) ∧ arena.InStep fs := by
  induction h with
  | start => exact ⟨.initial, rfl, Arena.inStep_initial⟩
  | step _ _ hserve ih =>
    obtain ⟨arena, hall, hstep⟩ := ih
    obtain ⟨arena', harena, hstep'⟩ := hstep.serve hserve
    refine ⟨arena', ?_, hstep'⟩
    rw [List.map_append, List.map_append]
    exact Arena.serveAll_concat hall harena

/--
After any requests through handles of a new module, the frames are the nested environments that the record of the
requests and their answers describes.  An arena whose frames know only the number of the next frame around them gives
the same answers, and whatever is looked up or listed in it is the same.
-/
theorem refines_of_reached {r : Record} {fs : Frames} (h : Reached r fs) : fs.Refines r ∧
    ∃ arena, Arena.initial.serveAll (r.map (·.1)) = .ok (r.map (·.2), arena) ∧ arena.Agrees fs := by
  obtain ⟨arena, hall, hstep⟩ := h.exists_arena
  exact ⟨h.follows.refines, arena, hall, hstep.agrees⟩

/-- A name of a module. -/
def outerX : Variable := ⟨"x", .bound, false, .ofLength 0 1, .empty⟩

/-- The same name in a frame inside the module. -/
def innerX : Variable := ⟨"x", .bound, true, .ofLength 5 1, .empty⟩

/-- A name of the module is declared again in a frame inside it, there a second time as a type, and exported. -/
def hidingRecord : Record :=
  [(.declare FrameId.module (.value outerX), .declared), (.nest FrameId.module, .frame 3),
    (.declare 3 (.value innerX), .declared),
    (.declare 3 (.type "x" TypeId.i32 (.ofLength 9 1)), .refused ⟨.ofLength 9 1, .duplicateDeclaration "x"⟩),
    (.exported 3 (.type "x" TypeId.i32 (.ofLength 9 1)), .declared)]

/-- The frames after that. -/
def hidingFrames : Frames :=
  ⟨[{ types := builtinTypes }, { outer := [FrameId.builtin], values := [("x", outerX)] },
    { types := [("x", TypeId.i32)] }, { outer := [FrameId.module, FrameId.builtin], values := [("x", innerX)] }]⟩

theorem refines_of_reached_hiding : Reached hidingRecord hidingFrames ∧ hidingFrames.Refines hidingRecord ∧
    (∃ arena, Arena.initial.serveAll (hidingRecord.map (·.1)) = .ok (hidingRecord.map (·.2), arena) ∧
      arena.lookupWithin 4 3 "x" = .ok (some innerX) ∧ arena.exportedTypes = .ok [("x", TypeId.i32)]) ∧
    hidingFrames.lookup 3 "x" = .ok (some innerX) ∧ hidingFrames.lookup FrameId.module "x" = .ok (some outerX) ∧
    hidingFrames.lookupType 3 "x" = .ok none ∧ hidingFrames.exportedTypes = .ok [("x", TypeId.i32)] := by
  have hmodule : Reached (hidingRecord.take 1) _ := .step .start .module rfl
  have hnested : Reached (hidingRecord.take 2) _ := .step hmodule .module rfl
  have hinner : Reached (hidingRecord.take 3) _ := .step hnested (.nested (.tail _ (.head _))) rfl
  have hrefused : Reached (hidingRecord.take 4) _ := .step hinner (.nested (.tail _ (.head _))) rfl
  have hreached : Reached hidingRecord hidingFrames := .step hrefused (.nested (.tail _ (.head _))) rfl
  obtain ⟨hrefines, arena, hall, hagrees⟩ := refines_of_reached hreached
  exact ⟨hreached, hrefines, ⟨arena, hall, hagrees.lookup 4 3 "x" (by decide), hagrees.exportedTypes⟩, rfl, rfl, rfl,
    rfl⟩

end Frames

end RainCheck

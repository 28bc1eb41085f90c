import RainCheck.Proofs.Declaring

/-!
# Requests for frames

What can be asked for through the handle of a frame, how the frames answer, and what they are afterwards.
* A new frame is nested in that of the handle.
* A variable or a type is declared in that of the handle, or in that of the exported names.  A name
  that is taken there is refused, and the frames are kept.
-/

namespace RainCheck

/-! ### Requests -/

namespace Frames

/-- What can be declared in a frame. -/
inductive Binding where
  | value (v : Variable)
  | type (name : String) (id : TypeId) (span : Span)

namespace Binding

/-- The name that is declared. -/
def name : Binding → String
  | value v => v.name
  | type name _ _ => name

/-- Where the declaration stands. -/
def span : Binding → Span
  | value v => v.span
  | type _ _ span => span

/-- The variable that is declared. -/
def value? : Binding → Option Variable
  | value v => some v
  | type .. => none

/-- The type that is declared, under its name. -/
def type? : Binding → Option (String × TypeId)
  | value _ => none
  | type name id _ => some (name, id)

end Binding

/-- A request through the handle of a frame.  What is exported is declared in the frame of the exported names. -/
inductive Request where
  | nest (handle : FrameId)
  | declare (handle : FrameId) (b : Binding)
  | exported (handle : FrameId) (b : Binding)

namespace Request

/-- The frame whose handle is used. -/
def handle : Request → FrameId
  | nest handle => handle
  | declare handle _ => handle
  | exported handle _ => handle

/-- What is to be declared, and in which frame. -/
def target? : Request → Option (FrameId × Binding)
  | nest _ => none
  | declare handle b => some (handle, b)
  | exported _ b => some (FrameId.exported, b)

end Request

/-- The answer to a request. -/
inductive Answer where
  | frame (id : FrameId)
  | declared
  | refused (d : Diagnostic)

/-- Declares a variable or a type in a frame. -/
def declareBinding (fs : Frames) (fr : FrameId) : Binding → Except Stop Frames
  | .value v => fs.declare fr v
  | .type name id span => fs.declareType fr name id span

/-- The answer to a declaration and the state after it, which is kept where it is refused. -/
def answerTo {σ : Type} (s : σ) : Except Stop σ → Except Fault (Answer × σ)
  | .ok s' => .ok (.declared, s')
  | .error (.refused d) => .ok (.refused d, s)
  | .error (.fault f) => .error f

/-- The answer to a request and the frames after it. -/
def serve (fs : Frames) : Request → Except Fault (Answer × Frames)
  | .nest handle => do
    let (id, fs) ← fs.nest handle
    return (.frame id, fs)
  | .declare handle b => answerTo fs (fs.declareBinding handle b)
  | .exported _ b => answerTo fs (fs.declareBinding FrameId.exported b)

end Frames

/-! ### What one request does -/

/-- A frame with one more declaration. -/
def Frame.add (f : Frame) : Frames.Binding → Frame
  | .value v => { f with values := f.values ++ [(v.name, v)] }
  | .type name id _ => { f with types := f.types ++ [(name, id)] }

theorem Frame.outer_add (f : Frame) (b : Frames.Binding) : (f.add b).outer = f.outer := by cases b <;> rfl

theorem Frame.values_add (f : Frame) (b : Frames.Binding) : (f.add b).values = f.values ++ named b.value?.toList := by
  cases b with
  | value => rfl
  | type => exact (List.append_nil _).symm

theorem Frame.types_add (f : Frame) (b : Frames.Binding) : (f.add b).types = f.types ++ b.type?.toList := by
  cases b with
  | value => exact (List.append_nil _).symm
  | type => rfl

theorem Frame.has_iff (f : Frame) (name : String) :
    f.has name = true ↔ name ∈ f.values.map (·.1) ++ f.types.map (·.1) := by
  have hlookup : ∀ {α : Type} (l : List (String × α)), (l.lookup name).isSome = true ↔ name ∈ l.map (·.1) := by
    intro α l
    rw [← Option.ne_none_iff_isSome, Ne, List.lookup_eq_none_iff]
    simp
  rw [has, Bool.or_eq_true, findVariable, findType, hlookup, hlookup, List.mem_append]

namespace Frames

variable {fs : Frames} {q : Request} {b : Binding} {fr : FrameId} {f : Frame}

theorem serve_nest (hf : fs.frames[fr]? = some f) :
    fs.serve (.nest fr) = .ok (.frame fs.size, ⟨fs.frames ++ [{ outer := fr :: f.outer }]⟩) := by
  have hget : fs.get fr = .ok f := itemAt_eq_ok_iff.mpr hf
  rw [serve, nest, hget]
  rfl

private theorem declareBinding_eq (hf : fs.frames[fr]? = some f) : fs.declareBinding fr b =
    if f.has b.name then .error (.refused ⟨b.span, .duplicateDeclaration b.name⟩)
    else .ok ⟨fs.frames.set fr (f.add b)⟩ := by
  have hget : fs.get fr = .ok f := itemAt_eq_ok_iff.mpr hf
  cases b with
  | value v =>
    rw [declareBinding, declare, hget]
    rfl
  | type name id span =>
    rw [declareBinding, declareType, hget]
    rfl

theorem serve_target (hq : q.target? = some (fr, b)) : fs.serve q = answerTo fs (fs.declareBinding fr b) := by
  cases q with
  | nest => cases hq
  | declare | exported =>
    cases hq
    rfl

theorem serve_refused (hq : q.target? = some (fr, b)) (hf : fs.frames[fr]? = some f) (hhas : f.has b.name = true) :
    fs.serve q = .ok (.refused ⟨b.span, .duplicateDeclaration b.name⟩, fs) := by
  rw [serve_target hq, declareBinding_eq hf, if_pos hhas]
  rfl

theorem serve_declared (hq : q.target? = some (fr, b)) (hf : fs.frames[fr]? = some f) (hhas : ¬f.has b.name = true) :
    fs.serve q = .ok (.declared, ⟨fs.frames.set fr (f.add b)⟩) := by
  rw [serve_target hq, declareBinding_eq hf, if_neg hhas]
  rfl

end Frames

end RainCheck

import RainCheck.Proofs.Scoping
import RainCheck.Proofs.Typing

/-!
# Frames and scopes

How the frames of a store follow the scopes of the tree (`Shows`).
* (inside) A declaration adds a variable at the end of one frame (`Adds`).
* (outside) All other frames stay as they are (`Leaves`).

So a lookup in a frame gives what the scope says.
-/

namespace RainCheck

/-! ### Frames as layers of a scope -/

/-- Variables under their names. -/
def named (vs : List Variable) : List (String × Variable) := vs.map fun v => (v.name, v)

/-- The variables of a frame under their names, without their types. -/
def Frame.names (f : Frame) : List (String × Variable) := f.values.map fun p => (p.1, p.2.bare)

namespace Store

variable {L : Listing} {s s' s'' : Store} {fr : FrameId} {σ : Scope}

/-- A frame has the variables of a layer. -/
def Holds (s : Store) (fr : FrameId) (layer : List Variable) : Prop := ∃ f, s.frame? fr = some f ∧ f.names = named layer

/-- A frame and those around it have the variables of a scope; the last one, of the primitive types, has none. -/
def Shows (s : Store) (fr : FrameId) : Scope → Prop
  | [] => False
  | layer :: rest => ∃ f, s.frame? fr = some f ∧ f.names = named layer ∧ List.Forall₂ s.Holds f.outer (rest ++ [[]])

/-- All frames but one stay as they are. -/
def Leaves (s s' : Store) (fr : FrameId) : Prop := ∀ g f, g ≠ fr → s.frame? g = some f → s'.frame? g = some f

/-- A frame gets more variables. -/
def Adds (s s' : Store) (fr : FrameId) (vs : List Variable) : Prop :=
  ∀ f, s.frame? fr = some f → ∃ f', s'.frame? fr = some f' ∧ f'.names = f.names ++ named vs

theorem Leaves.refl (s : Store) (fr : FrameId) : s.Leaves s fr := fun _ _ _ h => h

theorem Leaves.trans (h : s.Leaves s' fr) (h' : s'.Leaves s'' fr) : s.Leaves s'' fr := fun g f hne hf =>
  h' g f hne (h g f hne hf)

theorem Adds.refl (s : Store) (fr : FrameId) : s.Adds s fr [] := fun f hf => ⟨f, hf, by simp [named]⟩

theorem Adds.trans {vs ws : List Variable} (h : s.Adds s' fr vs) (h' : s'.Adds s'' fr ws) :
    s.Adds s'' fr (vs ++ ws) := by
  intro f hf
  obtain ⟨f', hf', hnames⟩ := h f hf
  obtain ⟨f'', hf'', hnames'⟩ := h' f' hf'
  exact ⟨f'', hf'', by simp [hnames', hnames, named]⟩

theorem Learns.leaves (h : s.Learns s') (fr : FrameId) : s.Leaves s' fr := fun g f _ hf => by
  unfold frame?
  rw [h.frames_eq]
  exact hf

theorem Learns.adds (h : s.Learns s') (fr : FrameId) : s.Adds s' fr [] := fun f hf => by
  refine ⟨f, ?_, by simp [named]⟩
  unfold frame?
  rw [h.frames_eq]
  exact hf

/-- Another frame that is left as it is. -/
theorem Leaves.adds {g : FrameId} (h : s.Leaves s' fr) (hne : g ≠ fr) : s.Adds s' g [] := fun f hf =>
  ⟨f, h g f hne hf, by simp [named]⟩

private theorem Leaves.holds {g : FrameId} {layer : List Variable} (h : s.Leaves s' fr) (hne : g ≠ fr)
    (hh : s.Holds g layer) :
    s'.Holds g layer := by
  obtain ⟨f, hf, hnames⟩ := hh
  exact ⟨f, h g f hne hf, hnames⟩

theorem Shows.lt_size (h : s.Shows fr σ) : fr < s.frames.size := by
  cases σ with
  | nil => exact h.elim
  | cons layer rest =>
    obtain ⟨f, hf, -⟩ := h
    exact frame_lt_size hf

/-- Frames around one that gets variables are left alone. -/
private theorem holds_outer {f : Frame} {layers : List (List Variable)} (hs : s.FramesSound L) {g : FrameId}
    (hf : s.frame? g = some f) (hle : g ≤ fr) (hleaves : s.Leaves s' fr) (h : List.Forall₂ s.Holds f.outer layers) :
    List.Forall₂ s'.Holds f.outer layers := by
  have hne : ∀ o ∈ f.outer, o ≠ fr := fun o ho => Nat.ne_of_lt (Nat.lt_of_lt_of_le (hs.outer g f hf o ho) hle)
  clear hf
  generalize f.outer = outer at h hne
  induction h with
  | nil => exact .nil
  | cons hh _ ih => exact .cons (hleaves.holds (hne _ (by simp)) hh) (ih fun o ho => hne o (by simp [ho]))

/-- Variables that are added to a frame are declared in the nearest layer. -/
theorem Shows.declare {vs : List Variable} (h : s.Shows fr σ) (hs : s.FramesSound L) (hg : s.GrowsTo s')
    (hleaves : s.Leaves s' fr) (hadds : s.Adds s' fr vs) : s'.Shows fr (σ.declare vs) := by
  cases σ with
  | nil => exact h.elim
  | cons layer rest =>
    obtain ⟨f, hf, hnames, hrest⟩ := h
    obtain ⟨f', hf', hnames'⟩ := hadds f hf
    obtain ⟨f'', hf'', hgrows⟩ := hg.frames fr f hf
    rw [hf'] at hf''
    cases hf''
    refine ⟨f', hf', by simp [hnames', hnames, named], ?_⟩
    rw [hgrows.outer]
    exact holds_outer hs hf (Nat.le_refl _) hleaves hrest

/-- Changes of a later frame do not change what a frame shows. -/
theorem Shows.before {g : FrameId} (h : s.Shows g σ) (hs : s.FramesSound L) (hleaves : s.Leaves s' fr) (hlt : g < fr) :
    s'.Shows g σ := by
  cases σ with
  | nil => exact h.elim
  | cons layer rest =>
    obtain ⟨f, hf, hnames, hrest⟩ := h
    exact ⟨f, hleaves g f (Nat.ne_of_lt hlt) hf, hnames, holds_outer hs hf (Nat.le_of_lt hlt) hleaves hrest⟩

/-- A store with one more frame. -/
def addFrame (s : Store) (outer : List FrameId) : Store := { s with frames := ⟨s.frames.frames ++ [{ outer }]⟩ }

theorem frame?_addFrame (outer : List FrameId) (g : FrameId) :
    (s.addFrame outer).frame? g = if g = s.frames.size then some { outer } else s.frame? g := by
  unfold frame? addFrame
  rw [List.getElem?_append]
  split
  · rename_i hlt
    rw [if_neg (show ¬g = s.frames.size from Nat.ne_of_lt hlt)]
  · rename_i hge
    split
    · rename_i heq
      simp [heq, Frames.size]
    · rename_i hne
      have hlt : s.frames.frames.length < g := Nat.lt_of_le_of_ne (Nat.not_lt.mp hge) (Ne.symm hne)
      rw [List.getElem?_eq_none (by simp; omega), List.getElem?_eq_none (Nat.le_of_lt hlt)]

/-- A new frame inside another one is a new layer. -/
theorem Shows.nest {f : Frame} (h : s.Shows fr σ) (hf : s.frame? fr = some f) :
    (s.addFrame (fr :: f.outer)).Shows s.frames.size ([] :: σ) := by
  cases σ with
  | nil => exact h.elim
  | cons layer rest =>
    obtain ⟨f', hf', hnames, hrest⟩ := h
    rw [hf] at hf'
    cases hf'
    refine ⟨{ outer := fr :: f.outer }, by rw [frame?_addFrame, if_pos rfl], rfl, ?_⟩
    have hholds : ∀ {g layer}, s.Holds g layer → (s.addFrame (fr :: f.outer)).Holds g layer := by
      rintro g layer ⟨f', hf', hnames⟩
      exact ⟨f', by rw [frame?_addFrame, if_neg (Nat.ne_of_lt (frame_lt_size hf')), hf'], hnames⟩
    exact .cons (hholds ⟨f, hf, hnames⟩) (hrest.imp fun _ _ => hholds)

end Store

/-! ### Lookups -/

namespace Scope

/-- Where no name occurs twice, the latest variable with a name is the only one. -/
private theorem latest_eq {layer : List Variable} {name : String} (h : (layer.map (·.name)).Nodup) :
    latest name layer = layer.find? (·.name = name) := by
  unfold latest
  induction layer with
  | nil => rfl
  | cons v layer ih =>
    obtain ⟨hv, hlayer⟩ := List.nodup_cons.mp h
    rw [List.reverse_cons, List.find?_append, ih hlayer, List.find?_cons]
    by_cases hname : v.name = name
    · have hnone : layer.find? (·.name = name) = none := by
        refine List.find?_eq_none.mpr fun w hw => ?_
        simp only [decide_eq_true_eq]
        intro hw'
        exact hv (List.mem_map.mpr ⟨w, hw, hw'.trans hname.symm⟩)
      simp [hname, hnone]
    · simp [hname]

end Scope

theorem lookup_map_bare (values : List (String × Variable)) (name : String) :
    (values.lookup name).map Variable.bare = (values.map fun p => (p.1, p.2.bare)).lookup name := by
  induction values with
  | nil => rfl
  | cons p values ih =>
    obtain ⟨key, v⟩ := p
    simp only [List.map_cons, List.lookup_cons]
    cases name == key
    · exact ih
    · rfl

theorem lookup_named (vs : List Variable) (name : String) : (named vs).lookup name = vs.find? (·.name = name) := by
  induction vs with
  | nil => rfl
  | cons v vs ih =>
    have hcomm : (name == v.name) = decide (v.name = name) := by simp [Bool.beq_eq_decide_eq, eq_comm]
    rw [named, List.map_cons, List.lookup_cons, List.find?_cons, hcomm]
    cases hname : decide (v.name = name)
    · exact ih
    · rfl

namespace Store

variable {L : Listing} {s : Store} {fr : FrameId} {σ : Scope}

/-- A frame finds the latest variable of its layer. -/
private theorem findVariable_bare {f : Frame} {layer : List Variable} (hs : s.FramesSound L) (hf : s.frame? fr = some f)
    (hnames : f.names = named layer) (name : String) :
    (f.findVariable name).map Variable.bare = Scope.latest name layer := by
  have hnodup : (layer.map (·.name)).Nodup := by
    have h := congrArg (List.map Prod.fst) hnames
    simp only [Frame.names, named, List.map_map, Function.comp_def] at h
    rw [← h]
    exact hs.once fr f hf
  rw [Scope.latest_eq hnodup, ← lookup_named, ← hnames]
  exact lookup_map_bare f.values name

private theorem searchIn_bare {chain : List FrameId} {layers : List (List Variable)} (hs : s.FramesSound L)
    (h : List.Forall₂ s.Holds chain layers) (name : String) :
    ∃ r, s.frames.searchIn (·.findVariable name) chain = .ok r ∧
      r.map Variable.bare = layers.findSome? (Scope.latest name) := by
  induction h with
  | nil => exact ⟨none, rfl, rfl⟩
  | @cons g layer chain layers hh _ ih =>
    obtain ⟨f, hf, hnames⟩ := hh
    have hfound := findVariable_bare hs hf hnames name
    have hget : s.frames.get g = .ok f := itemAt_eq_ok_iff.mpr hf
    rw [Frames.searchIn, hget, ok_bind, List.findSome?_cons, ← hfound]
    cases f.findVariable name with
    | some v => exact ⟨some v, rfl, rfl⟩
    | none => exact ih

/-- A lookup gives the variable that the name means in the scope. -/
theorem Shows.lookup (hs : s.FramesSound L) (h : s.Shows fr σ) (name : String) :
    ∃ r, s.frames.lookup fr name = .ok r ∧ r.map Variable.bare = σ.find? name := by
  cases σ with
  | nil => exact h.elim
  | cons layer rest =>
    obtain ⟨f, hf, hnames, hrest⟩ := h
    have hget : s.frames.get fr = .ok f := itemAt_eq_ok_iff.mpr hf
    obtain ⟨r, hr, hbare⟩ := searchIn_bare hs (.cons ⟨f, hf, hnames⟩ hrest) name
    refine ⟨r, ?_, ?_⟩
    · simpa [Frames.lookup, Frames.search, Frames.chain, hget] using hr
    · rw [hbare]
      simp [Scope.find?, Scope.latest, List.findSome?_append, List.findSome?_cons]

end Store

/-! ### Changes of frames -/

namespace Store

variable {L : Listing} {s s' : Store} {fr : FrameId} {f : Frame}

private theorem GrowsTo.size_le (hg : s.GrowsTo s') : s.frames.size ≤ s'.frames.size := by
  rcases Nat.eq_zero_or_pos s.frames.size with hzero | hpos
  · exact hzero ▸ Nat.zero_le _
  · exact Nat.le_of_pred_lt (hg.frame_lt (Nat.sub_lt hpos Nat.one_pos))

/-- What the name of a type means in a frame does not change. -/
theorem GrowsTo.lookupType (hg : s.GrowsTo s') (hs : s.FramesSound L) (hfr : fr < s.frames.size) (name : String) :
    s'.frames.lookupType fr name = s.frames.lookupType fr name := by
  have hchain : ∀ chain : List FrameId, (∀ o ∈ chain, o < s.frames.size) →
      s'.frames.searchIn (·.findType name) chain = s.frames.searchIn (·.findType name) chain := by
    intro chain hlt
    induction chain with
    | nil => rfl
    | cons o chain ih =>
      obtain ⟨f, hget, hf⟩ := get_frame (hlt o (by simp))
      obtain ⟨f', hf', hgrows⟩ := hg.frames o f hf
      have hget' : s'.frames.get o = .ok f' := itemAt_eq_ok_iff.mpr hf'
      have htypes : f'.findType name = f.findType name := by rw [Frame.findType, hgrows.types]; rfl
      rw [Frames.searchIn, Frames.searchIn, hget, hget', ok_bind, ok_bind, htypes]
      cases f.findType name with
      | some t => rfl
      | none => exact ih fun o ho => hlt o (by simp [ho])
  obtain ⟨f, hget, hf⟩ := get_frame hfr
  obtain ⟨f', hf', hgrows⟩ := hg.frames fr f hf
  have hget' : s'.frames.get fr = .ok f' := itemAt_eq_ok_iff.mpr hf'
  simp only [Frames.lookupType, Frames.search, Frames.chain, hget, hget', ok_bind, hgrows.outer]
  refine hchain (fr :: f.outer) fun o ho => ?_
  rcases List.mem_cons.mp ho with rfl | ho
  · exact hfr
  · exact Nat.lt_trans (hs.outer fr f hf o ho) hfr

/-- Frames in which more is declared. -/
private theorem FramesSound.extend (h : s.FramesSound L) (hg : s.GrowsTo s')
    (hframes : ∀ fr f, s'.frame? fr = some f → (∀ o ∈ f.outer, o < fr) ∧ (∀ name t, (name, t) ∈ f.types → s'.Known t) ∧
      (∀ name v, (name, v) ∈ f.values → s'.Declares L v) ∧ (f.values.map (·.1)).Nodup) : s'.FramesSound L := by
  refine ⟨?_, fun fr f hf => (hframes fr f hf).1, fun fr f name t hf => (hframes fr f hf).2.1 name t,
    fun fr f name v hf => (hframes fr f hf).2.2.1 name v, fun fr f hf =>
      (hframes fr f hf).2.2.2, fun hclosed name => ?_⟩
  · have htwo := hg.frame_lt (Nat.lt_of_lt_of_le (by decide : 2 < 3) h.three_le)
    exact htwo
  · have hlookup := hg.lookupType h h.module_lt name
    have hmeans := h.scope hclosed name
    cases hscope : L.scope name with
    | none =>
      rw [hscope] at hmeans
      exact hlookup.trans hmeans
    | some decl =>
      rw [hscope] at hmeans
      obtain ⟨id, e, hfound, he, hdecl, hbuiltin⟩ := hmeans
      obtain ⟨e', he', hbecomes⟩ := hg.entries id e he
      refine ⟨id, e', hlookup.trans hfound, he', ?_, hbuiltin⟩
      cases hbecomes <;> exact hdecl

/-- A store with one more variable in a frame. -/
def addVariable (s : Store) (fr : FrameId) (f : Frame) (v : Variable) : Store :=
  { s with frames := ⟨s.frames.frames.set fr { f with values := f.values ++ [(v.name, v)] }⟩ }

theorem frame?_addVariable {v : Variable} (hf : s.frame? fr = some f) (g : FrameId) :
    (s.addVariable fr f v).frame? g =
      if g = fr then some { f with values := f.values ++ [(v.name, v)] } else s.frame? g := by
  unfold frame? addVariable
  rw [List.getElem?_set]
  by_cases h : fr = g
  · subst h
    have hlt := frame_lt_size hf
    simp only [if_true]
    exact if_pos hlt
  · rw [if_neg h, if_neg (Ne.symm h)]

theorem extends_addFrame {outer : List FrameId} : s.Extends (s.addFrame outer) := by
  refine ⟨⟨fun _ e he => ⟨e, he, .refl e⟩, rfl, fun g f hf => ⟨f, ?_, .refl f⟩, fun _ => .refl _⟩, rfl, Nat.le_refl _⟩
  rw [frame?_addFrame, if_neg (Nat.ne_of_lt (frame_lt_size hf))]
  exact hf

private theorem leaves_addFrame {outer : List FrameId} : s.Leaves (s.addFrame outer) fr := by
  intro g f _ hf
  rw [frame?_addFrame, if_neg (Nat.ne_of_lt (frame_lt_size hf))]
  exact hf

theorem adds_addFrame {outer : List FrameId} : s.Adds (s.addFrame outer) fr [] := by
  intro f hf
  refine ⟨f, ?_, by simp [named]⟩
  rw [frame?_addFrame, if_neg (Nat.ne_of_lt (frame_lt_size hf))]
  exact hf

theorem extends_addVariable {v : Variable} (hf : s.frame? fr = some f) : s.Extends (s.addVariable fr f v) := by
  refine ⟨⟨fun _ e he => ⟨e, he, .refl e⟩, rfl, fun g f' hf' => ?_, fun _ => .refl _⟩, rfl, Nat.le_refl _⟩
  rw [frame?_addVariable hf]
  split
  · rename_i heq
    subst heq
    rw [hf] at hf'
    cases hf'
    exact ⟨_, rfl, rfl, rfl, List.prefix_append _ _⟩
  · exact ⟨f', hf', .refl f'⟩

private theorem leaves_addVariable {v : Variable} (hf : s.frame? fr = some f) : s.Leaves (s.addVariable fr f v) fr := by
  intro g f' hne hf'
  rw [frame?_addVariable hf, if_neg hne]
  exact hf'

private theorem adds_addVariable {v : Variable} (hf : s.frame? fr = some f) :
    s.Adds (s.addVariable fr f v) fr [v.bare] := by
  intro f' hf'
  rw [hf] at hf'
  cases hf'
  exact ⟨_, by rw [frame?_addVariable hf, if_pos rfl], by simp [Frame.names, named, Variable.bare]⟩

/-- A store in which a function is registered in a frame. -/
def register (s : Store) (fr : FrameId) (f : Frame) (header : Header) : Store :=
  (s.addVariable fr f header.binding).withFunction header.span { variableType := some .empty }

private theorem extends_register {header : Header} (hf : s.frame? fr = some f) (hnew : s.function header.span = {}) :
    s.Extends (s.register fr f header) := by
  refine (extends_addVariable hf).trans (extends_withFunction ?_)
  rw [show (s.addVariable fr f header.binding).function header.span = {} from hnew]
  exact ⟨fun _ h => h, nofun, nofun⟩

theorem Sound.addFrame (h : s.Sound L) (hf : s.frame? fr = some f) : (s.addFrame (fr :: f.outer)).Sound L := by
  have hg : s.GrowsTo (s.addFrame (fr :: f.outer)) := extends_addFrame.toGrowsTo
  refine ⟨h.types.congr rfl rfl, h.frames.extend hg fun g f' hf' => ?_, h.functions.grow hg rfl⟩
  rw [frame?_addFrame] at hf'
  split at hf'
  · rename_i heq
    cases hf'
    refine ⟨fun o ho => ?_, by simp, by simp, by simp⟩
    have hfr := frame_lt_size hf
    rw [heq]
    rcases List.mem_cons.mp ho with rfl | ho
    · exact hfr
    · exact Nat.lt_trans (h.frames.outer fr f hf o ho) hfr
  · exact ⟨h.frames.outer g f' hf', fun name t ht => hg.known (h.frames.types g f' name t hf' ht),
      fun name v hv => hg.declares (h.frames.values g f' name v hf' hv), h.frames.once g f' hf'⟩

theorem lookup_of_has {name : String} (h : f.has name = false) : f.values.lookup name = none := by
  simp only [Frame.has, Bool.or_eq_false_iff, Option.isSome_eq_false_iff, Option.isNone_iff_eq_none] at h
  exact h.1

theorem not_mem_of_has {name : String} (h : f.has name = false) : name ∉ f.values.map (·.1) := by
  have hnone := List.lookup_eq_none_iff.mp (lookup_of_has h)
  intro hmem
  obtain ⟨p, hp, hname⟩ := List.mem_map.mp hmem
  simpa [hname] using hnone p hp

/-- The frames stay sound when a variable that the later store declares is added. -/
private theorem FramesSound.addVariable {v : Variable} (h : s.FramesSound L) (hf : s.frame? fr = some f)
    (hnew : f.has v.name = false) (hframes : s'.frames = (s.addVariable fr f v).frames) (hg : s.GrowsTo s')
    (hv : s'.Declares L v) : s'.FramesSound L := by
  refine h.extend hg fun g f' hf' => ?_
  have hf'' : (s.addVariable fr f v).frame? g = some f' := by
    unfold frame? at hf' ⊢
    rwa [← hframes]
  rw [frame?_addVariable hf] at hf''
  split at hf''
  · rename_i heq
    subst heq
    cases hf''
    refine ⟨h.outer g f hf, fun name t ht => hg.known (h.types g f name t hf ht), fun name w hw => ?_, ?_⟩
    · rcases List.mem_append.mp hw with hw | hw
      · exact hg.declares (h.values g f name w hf hw)
      · simp only [List.mem_singleton, Prod.mk.injEq] at hw
        exact hw.2 ▸ hv
    · simp only [List.map_append, List.map_cons, List.map_nil]
      refine List.nodup_append.mpr ⟨h.once g f hf, by simp, fun a ha b hb => ?_⟩
      rw [List.mem_singleton.mp hb]
      exact fun heq => not_mem_of_has hnew (heq ▸ ha)
  · exact ⟨h.outer g f' hf'', fun name t ht => hg.known (h.types g f' name t hf'' ht),
      fun name w hw => hg.declares (h.values g f' name w hf'' hw), h.once g f' hf''⟩

end Store

/-! ### Actions that change frames -/

/-- A sound store that grew, where one frame and the functions among some mentions may be new. -/
structure Store.Moves (L : Listing) (fr : FrameId) (ms : List Mention) (s s' : Store) : Prop extends s.Extends s' where
  sound : s'.Sound L
  leaves : s.Leaves s' fr
  unregistered : ∀ key, (∀ h, .function h ∈ ms → h.span ≠ key) → (s.function key).variableType = none →
    s'.function key = s.function key
  untouched : ∀ key, (s'.function key).variableType = none → s'.function key = s.function key

namespace Store.Moves

variable {L : Listing} {fr : FrameId} {ms ns : List Mention} {s s' s'' : Store}

theorem refl (hs : s.Sound L) : s.Moves L fr ms s := ⟨.refl s, hs, .refl s fr, fun _ _ _ => rfl, fun _ _ => rfl⟩

theorem trans (h : s.Moves L fr ms s') (h' : s'.Moves L fr ms s'') : s.Moves L fr ms s'' := by
  refine ⟨h.toExtends.trans h'.toExtends, h'.sound, h.leaves.trans h'.leaves,
    fun key hkey hnone => ?_, fun key hnone => ?_⟩
  · have hsame := h.unregistered key hkey hnone
    rw [h'.unregistered key hkey (by rwa [hsame]), hsame]
  · rw [h'.untouched key hnone, h.untouched key (h'.toExtends.toGrowsTo.unregistered hnone)]

theorem mono (h : s.Moves L fr ms s') (hsub : ∀ m ∈ ms, m ∈ ns) : s.Moves L fr ns s' :=
  ⟨h.toExtends, h.sound, h.leaves, fun key hkey => h.unregistered key fun header hm => hkey header (hsub _ hm),
    h.untouched⟩

theorem of_learns (hs : s'.Sound L) (h : s.Learns s') : s.Moves L fr ms s' :=
  ⟨h.toExtends, hs, h.leaves fr, fun key _ => h.unregistered key,
    fun key hkey => h.unregistered key (h.toGrowsTo.unregistered hkey)⟩

/-- What happens in a new frame does not concern the frames before it. -/
theorem before {g : FrameId} (h : s.Moves L fr ms s') (hnew : s.frames.size ≤ fr) : s.Moves L g ms s' :=
  ⟨h.toExtends, h.sound, fun o f _ hf => h.leaves o f (Nat.ne_of_lt (Nat.lt_of_lt_of_le (frame_lt_size hf) hnew)) hf,
    h.unregistered, h.untouched⟩

theorem addFrame {f : Frame} {g : FrameId} (hs : s.Sound L) (hf : s.frame? g = some f) :
    s.Moves L fr ms (s.addFrame (g :: f.outer)) :=
  ⟨extends_addFrame, hs.addFrame hf, leaves_addFrame, fun _ _ _ => rfl, fun _ _ => rfl⟩

/-- A function whose name is new in a frame is registered there. -/
theorem register {f : Frame} {header : Header} (hs : s.Sound L) (hf : s.frame? fr = some f)
    (hhas : f.has header.binding.name = false) (hlisted : L.Lists header.mentions)
    (hnew : s.function header.span = {}) :
    s.Moves L fr [.function header] (s.register fr f header) ∧ (s.register fr f header).Declares L header.binding := by
  obtain ⟨hprototype, hmentions⟩ := Listing.lists_cons.mp hlisted
  have hextends := extends_register hf hnew
  have hdeclares : (s.register fr f header).Declares L header.binding := by
    refine ⟨hprototype, hmentions, ?_⟩
    rw [show header.binding.span = header.span from rfl, Store.register, function_withFunction, if_pos rfl]
    rfl
  have hfunctions : (s.register fr f header).FunctionsSound L := by
    have hgrows : s.GrowsTo (s.addVariable fr f header.binding) := (extends_addVariable hf).toGrowsTo
    refine (hs.functions.grow hgrows rfl).withFunction (by simp) ?_ (by simp)
    rintro _ ⟨⟩
    exact .inl ⟨rfl, rfl⟩
  have hframes : (s.register fr f header).FramesSound L :=
    hs.frames.addVariable hf hhas rfl hextends.toGrowsTo hdeclares
  have hother : ∀ key, key ≠ header.span → (s.register fr f header).function key = s.function key := fun key hkey => by
    rw [Store.register, function_withFunction, if_neg hkey]
    rfl
  refine ⟨⟨hextends, ⟨hs.types.congr rfl rfl, hframes, hfunctions⟩, ?_, fun key hkey _ => ?_,
    fun key hkey => ?_⟩, hdeclares⟩
  · exact (leaves_addVariable hf).trans fun _ _ _ h => h
  · exact hother key fun heq => hkey header (by simp) heq.symm
  · refine hother key fun heq => ?_
    have hsome := hdeclares.2.2
    rw [show header.binding.span = key from heq.symm, hkey] at hsome
    cases hsome

end Store.Moves

namespace Action

variable {α β : Type} {L : Listing} {s : Store} {fr : FrameId} {f : Frame} {ms : List Mention} {vs ws : List Variable}

/-- An action that declares variables in a frame, or refuses the program. -/
def Moves (L : Listing) (fr : FrameId) (ms : List Mention) (vs : List Variable) (s : Store) (a : Action α)
    (P : α → Store → Prop) (R : Diagnostic → Prop) : Prop :=
  a.Ends s (fun x s' => s.Moves L fr ms s' ∧ s.Adds s' fr vs ∧ P x s') (fun d s' => s.Moves L fr ms s' ∧ R d)

variable {P : α → Store → Prop} {Q : β → Store → Prop} {R : Diagnostic → Prop}

theorem Keeps.moves {a : Action α} (h : Keeps L s a P R) : Moves L fr ms [] s a P R := by
  refine Ends.mono h ?_ ?_
  · rintro x s' ⟨hs', hlearns, hP⟩
    exact ⟨.of_learns hs' hlearns, hlearns.adds fr, hP⟩
  · rintro d s' ⟨hs', hlearns, hR⟩
    exact ⟨.of_learns hs' hlearns, hR⟩

/-- Declarations are followed by an action that declares nothing. -/
theorem Moves.bind {a : Action α} {g : α → Action β} (h : Moves L fr ms vs s a P R)
    (hg : ∀ x s', s.Moves L fr ms s' → s.Adds s' fr vs → P x s' → Moves L fr ms [] s' (g x) Q R) :
    Moves L fr ms vs s (a >>= g) Q R := by
  refine Ends.bind h ?_
  rintro x s' ⟨hmoves, hadds, hP⟩
  refine (hg x s' hmoves hadds hP).mono ?_ ?_
  · rintro y s'' ⟨hmoves', hadds', hQ⟩
    exact ⟨hmoves.trans hmoves', by simpa using hadds.trans hadds', hQ⟩
  · rintro d s'' ⟨hmoves', hR⟩
    exact ⟨hmoves.trans hmoves', hR⟩

theorem ends_nest {done : FrameId → Store → Prop} {refused : Diagnostic → Store → Prop} (hf : s.frame? fr = some f) :
    (nest fr).Ends s done refused ↔ done s.frames.size (s.addFrame (fr :: f.outer)) := by
  have hget : s.frames.get fr = .ok f := itemAt_eq_ok_iff.mpr hf
  have hnest : s.frames.nest fr = .ok (s.frames.size, (s.addFrame (fr :: f.outer)).frames) := by
    simp [Frames.nest, hget, Store.addFrame]
  unfold nest
  rw [ends_bind, ends_get, hnest]
  rfl

theorem ends_declare {done : Unit → Store → Prop} {refused : Diagnostic → Store → Prop} {v : Variable}
    (hf : s.frame? fr = some f) :
    (declare fr v).Ends s done refused ↔
      if f.has v.name then refused ⟨v.span, .duplicateDeclaration v.name⟩ s else done () (s.addVariable fr f v) := by
  have hget : s.frames.get fr = .ok f := itemAt_eq_ok_iff.mpr hf
  have hdeclare : s.frames.declare fr v =
      if f.has v.name then .error (.refused ⟨v.span, .duplicateDeclaration v.name⟩)
      else .ok (s.addVariable fr f v).frames := by
    simp [Frames.declare, hget, Stop.lift, Store.addVariable]
  unfold declare updateFrames
  rw [ends_bind, ends_get]
  dsimp only
  rw [hdeclare]
  cases f.has v.name <;> rfl

/-- A variable that has a type is declared. -/
theorem moves_declare {v : Variable} (hs : s.Sound L) (hfr : fr < s.frames.size) (hv : s.Declares L v) :
    Moves L fr ms [v.bare] s (declare fr v) (fun _ s' => s'.Finds fr v) L.Allows := by
  obtain ⟨f, -, hf⟩ := Store.get_frame hfr
  unfold Moves
  rw [ends_declare hf]
  cases hhas : f.has v.name with
  | true => exact ⟨.refl hs, .of_kind (by simp [Diagnostic.kind, Cause.kind])⟩
  | false =>
    have hextends : s.Extends (s.addVariable fr f v) := Store.extends_addVariable hf
    have hframes := hs.frames.addVariable hf hhas rfl hextends.toGrowsTo (hextends.toGrowsTo.declares hv)
    have hsound : (s.addVariable fr f v).Sound L :=
      ⟨hs.types.congr rfl rfl, hframes, hs.functions.grow hextends.toGrowsTo rfl⟩
    refine ⟨⟨hextends, hsound, Store.leaves_addVariable hf, fun _ _ _ => rfl, fun _ _ => rfl⟩,
      Store.adds_addVariable hf, ?_⟩
    refine ⟨_, by rw [Store.frame?_addVariable hf, if_pos rfl], ?_⟩
    simp [Frame.findVariable, List.lookup_append, Store.lookup_of_has hhas]

/-- The name of a nested function is declared, and has its type with the function. -/
theorem moves_register {header : Header} (hs : s.Sound L) (hfr : fr < s.frames.size)
    (hexported : header.exported = false)
    (hlisted : L.Lists header.mentions) (hnew : s.function header.span = {}) :
    Moves L fr [.function header] [header.binding] s (registerFunction fr header)
      (fun _ s' => s'.Declares L header.binding) L.Allows := by
  obtain ⟨f, -, hf⟩ := Store.get_frame hfr
  unfold Moves registerFunction
  rw [ends_bind, ends_get, hnew, hexported]
  simp only [Option.isSome_none, Bool.false_eq_true, if_false]
  rw [ends_bind, ends_declare hf]
  cases hhas : f.has header.binding.name with
  | true => exact ⟨.refl hs, .of_kind (by simp [Diagnostic.kind, Cause.kind])⟩
  | false =>
    have hrecord : (s.addVariable fr f header.binding).function header.span = {} := hnew
    simp only [Bool.false_eq_true, if_false, ends_bind, ends_updateFunction, ends_pure, hrecord]
    obtain ⟨hmoves, hdeclares⟩ := Store.Moves.register hs hf hhas hlisted hnew
    exact ⟨hmoves, Store.adds_addVariable hf, hdeclares⟩

/-- A block gets a frame of its own. -/
theorem moves_nest {σ : Scope} {g : FrameId} (hs : s.Sound L) (hshows : s.Shows fr σ) :
    Moves L g ms [] s (nest fr) (fun inner s' => inner = s.frames.size ∧ s'.Shows inner ([] :: σ) ∧
      ∃ f, s'.frame? inner = some f ∧ f.outer.head? = some fr) R := by
  obtain ⟨f, -, hf⟩ := Store.get_frame hshows.lt_size
  unfold Moves
  rw [ends_nest hf]
  refine ⟨.addFrame hs hf, Store.adds_addFrame, rfl, hshows.nest hf, { outer := fr :: f.outer }, ?_, rfl⟩
  rw [Store.frame?_addFrame, if_pos rfl]

/-- A nested function is declared in its block, and again in a frame of its own inside the module. -/
theorem moves_enterNested {header : Header} {functions : List Variable} (hs : s.Sound L) (hfr : fr < s.frames.size)
    (hlocal : 3 ≤ fr) (hexported : header.exported = false) (hlisted : L.Lists header.mentions)
    (hnew : s.function header.span = {}) (hmodule : s.Shows FrameId.module [functions]) :
    Moves L fr [.function header] [header.binding] s (enterNested fr header)
      (fun own s' => s.frames.size ≤ own ∧ s'.Shows own [[header.binding], functions] ∧
        (s'.function header.span).variableType.isSome = true) L.Allows := by
  unfold enterNested
  refine (moves_register hs hfr hexported hlisted hnew).bind fun _ s₁ hmoves₁ _ hdeclares => ?_
  have hmodule₁ := hmodule.before hs.frames hmoves₁.leaves (Nat.lt_of_lt_of_le (by decide) hlocal)
  obtain ⟨f, -, hf⟩ := Store.get_frame hmodule₁.lt_size
  obtain ⟨own, hown⟩ : ∃ own, own = s₁.frames.size := ⟨_, rfl⟩
  have hsize : s.frames.size ≤ own := hown ▸ hmoves₁.toExtends.toGrowsTo.size_le
  have hmoves₂ : s₁.Moves L own [.function header] (s₁.addFrame (FrameId.module :: f.outer)) :=
    .addFrame hmoves₁.sound hf
  have hshows₂ : (s₁.addFrame (FrameId.module :: f.outer)).Shows own [[], functions] := hown ▸ hmodule₁.nest hf
  have hdeclare : Moves L own [.function header] [header.binding] _ (declare own header.binding) _ _ :=
    moves_declare hmoves₂.sound hshows₂.lt_size (hmoves₂.toExtends.toGrowsTo.declares hdeclares)
  unfold Moves
  rw [ends_bind, ends_nest hf, ← hown, ends_bind]
  refine hdeclare.mono ?_ ?_
  · rintro _ s₃ ⟨hmoves₃, hadds, -⟩
    rw [ends_pure]
    have hmoves := hmoves₂.trans hmoves₃
    refine ⟨hmoves.before (Nat.le_of_eq hown.symm), hmoves.leaves.adds ?_, hsize, ?_, ?_⟩
    · exact Nat.ne_of_lt (Nat.lt_of_lt_of_le hfr hsize)
    · exact hshows₂.declare hmoves₂.sound.frames hmoves₃.toExtends.toGrowsTo hmoves₃.leaves hadds
    · exact (hmoves.toExtends.toGrowsTo.declares hdeclares).2.2
  · rintro d s₃ ⟨hmoves₃, hallows⟩
    exact ⟨(hmoves₂.trans hmoves₃).before (Nat.le_of_eq hown.symm), hallows⟩

/-- The parameters of a function get a frame of their own. -/
theorem moves_enterFunction {header : Header} {σ : Scope} (hs : s.Sound L) (hidle : s.Idle) (hshows : s.Shows fr σ)
    (hlisted : L.Lists header.mentions) (hregistered : (s.function header.span).variableType.isSome = true)
    {g : FrameId} :
    Moves L g ms [] s (enterFunction fr header)
      (fun entry s' => entry.frame = s.frames.size ∧ s'.Shows entry.frame ([] :: σ) ∧
        s'.typeAt? entry.signature = some (.function entry.params entry.returns) ∧
        entry.params.length = header.params.length) L.Allows := by
  obtain ⟨hprototype, hmentions⟩ := Listing.lists_cons.mp hlisted
  unfold Moves enterFunction
  rw [ends_bind]
  refine Ends.mono (keeps_signature hs hidle hshows.lt_size hprototype hmentions hregistered) ?_ ?_
  · rintro sig s₁ ⟨hs₁, hlearns, hsig⟩
    obtain ⟨params, returns, he, hlen⟩ := hs₁.functions.signature _ sig hsig
    have hmoves : s.Moves L g ms s₁ := .of_learns hs₁ hlearns
    have hshows₁ : s₁.Shows fr σ := by
      simpa using hshows.declare hs.frames hlearns.toGrowsTo (hlearns.leaves fr) (hlearns.adds fr)
    obtain ⟨f, -, hf⟩ := Store.get_frame hshows₁.lt_size
    rw [ends_bind, ends_fromTypes (Store.get_of_entry he)]
    dsimp only [TypeEntry.function?]
    rw [ends_bind, ends_nest hf, ends_pure]
    refine ⟨hmoves.trans (.addFrame hs₁ hf), ?_, by rw [hlearns.frames_eq], hshows₁.nest hf, he, ?_⟩
    · exact (hlearns.adds g).trans Store.adds_addFrame
    · rw [hlen, hprototype]
      simp [Header.prototype]
  · rintro d s₁ ⟨hs₁, hlearns, hallows⟩
    exact ⟨.of_learns hs₁ hlearns, hallows⟩

end Action

end RainCheck

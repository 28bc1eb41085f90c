import RainCheck.Proofs.NamesAlike
import RainCheck.Proofs.Preparation

/-!
# Stores in which types denote the same

Two modules in which each name is that of declarations with the same head, in whatever order these
stand.  Before bodies are checked their stores differ by numbers (`Concluded.renumbered`).
* (types) A type of the one is matched with the type of the other that denotes the same term (`termMatching`).
* (names) In the frames of the modules the same names mean the same.
* (functions) The types of the same functions are resolved, and they denote the same term.
-/

namespace RainCheck

open RainCheck.Action

/-! ### Stores in which types denote the same -/

/-- Types that denote one term are matched, and so are the frames of the module.  Problems are not told apart. -/
def termMatching (s s' : Store) (span : Span → Span → Prop) : Matching where
  span := span
  type t t' := ∃ τ, s.Denotes t τ ∧ s'.Denotes t' τ
  frame fr fr' := fr = fr' ∧ fr < 3
  problem _ _ := True

section

variable {s s' : Store} {span : Span → Span → Prop}

private theorem Store.DenotesAll.related {ids ids' : List TypeId} {τs : List TypeTerm} (h : s.DenotesAll ids τs)
    (h' : s'.DenotesAll ids' τs) : List.Forall₂ (termMatching s s' span).type ids ids' := by
  induction τs generalizing ids ids' with
  | nil =>
    cases h
    cases h'
    exact .nil
  | cons τ τs ih =>
    cases h with
    | cons h hs =>
      cases h' with
      | cons h' hs' => exact .cons ⟨τ, h, h'⟩ (ih hs hs')

/-- The types of fields that are written the same are matched. -/
private theorem Store.Wrote.related {R : Span → Span → Prop} {scope scope' : TypeScope} (hscope : scope.Alike scope')
    {fields fields' : List (String × TypeId)} {ds ds' : List FieldDecl}
    (hds : List.Forall₂ (FieldDecl.Matches R) ds ds')
    (h : s.Wrote scope fields ds) (hnames : fields.map (·.1) = ds.map (·.name)) (h' : s'.Wrote scope' fields' ds')
    (hnames' : fields'.map (·.1) = ds'.map (·.name)) : FieldsMatch (termMatching s s' span) fields fields' := by
  induction hds generalizing fields fields' with
  | nil =>
    cases h
    cases h'
    exact .nil
  | cons hd _ ih =>
    cases h with
    | cons h hrest =>
      cases h' with
      | cons h' hrest' =>
        simp only [List.map_cons, List.cons.injEq] at hnames hnames'
        refine .cons ⟨?_, _, h, ?_⟩ (ih hrest hnames.2 hrest' hnames'.2)
        · rw [hnames.1, hnames'.1, hd.name]
        · rwa [hd.type.term hscope] at h'

end

/-! ### Stores before bodies are checked -/

section

variable {decls decls' : List Decl} {items items' : List Item} {s s' : Store} {span : Span → Span → Prop}

namespace Concluded

variable (h : Concluded decls items s) (h' : Concluded decls' items' s')
  (hnames : NamesAlike (Decl.HeadMatches (termMatching s s' span)) decls decls')

include h h' hnames

/-- Declarations with one name have failed in both modules or in none. -/
theorem same_failed {i i' : Item} (hi : i ∈ items) (hi' : i' ∈ items') (hname : i'.decl.name = i.decl.name) :
    i'.failed = i.failed := by
  have hmatch := hnames.rel (h.owns (h.decls_eq ▸ List.mem_map_of_mem hi : i.decl ∈ decls))
    (h'.owns (h'.decls_eq ▸ List.mem_map_of_mem hi' : i'.decl ∈ decls')) hname
  rw [Bool.eq_iff_iff]
  generalize hd : i.decl = d at hmatch
  generalize hd' : i'.decl = d' at hmatch
  cases hmatch with
  | struct hstruct => rw [h.struct_failed hi hd, h'.struct_failed hi' hd', hnames.scope.doomed_iff hstruct.alike]
  | function hheader =>
    rw [h.function_failed hi hd, h'.function_failed hi' hd', hheader.prototype.occurrences, hnames.fine_iff]

/-- Types that denote one term have the same form. -/
private theorem same_type {t t' : TypeId} {τ : TypeTerm} (ht : s.Denotes t τ) (ht' : s'.Denotes t' τ) :
    ∃ e e', s.typeAt? t = some e ∧ s'.typeAt? t' = some e' ∧ e.Matches (termMatching s s' span) e' ∧ e.Closed := by
  have hother : ∀ {e : TypeEntry}, e.struct? = none → e.Closed := fun hnone decl state heq => by
    rw [heq] at hnone
    cases hnone
  cases ht with
  | primitive he =>
    cases ht' with
    | primitive he' => exact ⟨_, _, he, he', .primitive, hother rfl⟩
  | @struct _ d state he hr =>
    generalize hname : d.name = name at ht'
    cases ht' with
    | @struct _ d' state' he' hr' =>
      obtain ⟨hd, -⟩ := h.struct_mem he
      obtain ⟨hd', -⟩ := h'.struct_mem he'
      have hmatch := hnames.rel (h.owns hd) (h'.owns hd') hname.symm
      cases hmatch with
      | struct hstruct =>
        refine ⟨_, _, he, he', ?_, h.ready.closed (h.ready.known_struct hd hr) he⟩
        have hdoomed := hnames.scope.doomed_iff hstruct.alike
        rcases h.struct_state he with ⟨hyes, why, rfl⟩ | ⟨hno, fields, rfl, hfields, hwrote⟩ <;>
          rcases h'.struct_state he' with ⟨hyes', why', rfl⟩ | ⟨hno', fields', rfl, hfields', hwrote'⟩
        · exact .struct hstruct (.failed trivial)
        · exact absurd (hdoomed.mpr hyes) hno'
        · exact absurd (hdoomed.mp hyes') hno
        · exact .struct hstruct (.resolved (hwrote.related hnames.scope hstruct.fields hfields hwrote' hfields'))
  | reference he hinner =>
    cases ht' with
    | reference he' hinner' => exact ⟨_, _, he, he', .reference ⟨_, hinner, hinner'⟩, hother rfl⟩
  | function he hps hr =>
    cases ht' with
    | function he' hps' hr' => exact ⟨_, _, he, he', .function (hps.related hps') ⟨_, hr, hr'⟩, hother rfl⟩

omit h h' hnames in
/-- What a frame gives for a name is the same if it gives declarations with the same head. -/
private theorem same_name {f f' : Frame} {name : String} {d d' : Option Decl} (hf : f.Gives s name d)
    (hf' : f'.Gives s' name d')
    (hd : Option.Rel (Decl.HeadMatches (termMatching s s' span)) d d') :
    Option.Rel (Variable.Matches (termMatching s s' span)) (f.findVariable name) (f'.findVariable name) ∧
      Option.Rel (termMatching s s' span).type (f.findType name) (f'.findType name) := by
  rw [hf.value, hf'.value]
  cases hd with
  | none =>
    rw [hf.other nofun, hf'.other nofun]
    exact ⟨.none, .none⟩
  | some hd =>
    cases hd with
    | @struct A A' hstruct =>
      obtain ⟨t, ht, hdenotes⟩ := hf.struct A rfl
      obtain ⟨t', ht', hdenotes'⟩ := hf'.struct A' rfl
      rw [ht, ht']
      exact ⟨.none, .some ⟨_, hdenotes, hstruct.name ▸ hdenotes'⟩⟩
    | function hheader =>
      rw [hf.other nofun, hf'.other nofun]
      exact ⟨.some hheader.binding, .none⟩

/-- The same names mean the same in the frames of both modules. -/
private theorem same_frame {fr : FrameId} (hfr : fr < 3) :
    ∃ f f', s.frame? fr = some f ∧ s'.frame? fr = some f' ∧ f.Alike (termMatching s s' span) f' := by
  obtain ⟨m, x, hframes, houter, hnone, hm, hx⟩ := h.frames
  obtain ⟨m', x', hframes', houter', hnone', hm', hx'⟩ := h'.frames
  have hmodule := fun name => same_name (hm name) (hm' name) (hnames name)
  have hexported := fun name => same_name (hx name) (hx' name) <| by
    have hname := hnames name
    generalize decls.find? (·.name = name) = o at hname
    generalize decls'.find? (·.name = name) = o' at hname
    cases hname with
    | none => exact .none
    | @some d d' hd =>
      have hexported : d'.exported = d.exported := by
        cases hd with
        | struct hstruct => exact hstruct.exported
        | function hheader => exact hheader.exported
      simp only [Option.filter_some, hexported]
      split
      · exact .some hd
      · exact .none
  unfold Store.frame?
  rw [hframes, hframes']
  -- the frame of the builtin types, that of the module and that of its exports
  match fr, hfr with
  | 0, _ =>
    refine ⟨_, _, rfl, rfl, .nil, fun _ => .none, fun name => ?_⟩
    change Option.Rel _ (Frames.builtinTypes.lookup name) (Frames.builtinTypes.lookup name)
    cases hfound : Frames.builtinTypes.lookup name with
    | none => exact .none
    | some t =>
      have hprimitive := primitive_of_builtin hfound
      exact .some ⟨_, .primitive ((h.sound.types.primitives t name).mpr hprimitive),
        .primitive ((h'.sound.types.primitives t name).mpr hprimitive)⟩
  | 1, _ =>
    refine ⟨_, _, rfl, rfl, ?_, fun name => (hmodule name).1, fun name => (hmodule name).2⟩
    rw [houter, houter']
    exact .cons ⟨rfl, by decide⟩ .nil
  | 2, _ =>
    refine ⟨_, _, rfl, rfl, ?_, fun name => (hexported name).1, fun name => (hexported name).2⟩
    rw [hnone, hnone']
    exact .nil

/-- The same is known about functions with one name. -/
private theorem same_function {f f' : FunctionDecl} (hf : .function f ∈ decls) (hf' : .function f' ∈ decls')
    (hname : f'.header.name = f.header.name) :
    (s.function f.header.span).Alike (termMatching s s' span) (s'.function f'.header.span) := by
  obtain ⟨i, hi, hdecl⟩ := h.exists_item hf
  obtain ⟨i', hi', hdecl'⟩ := h'.exists_item hf'
  have hfailed := h.same_failed h' hnames hi hi' (by rw [hdecl, hdecl']; exact hname)
  have hrecord := h.function_record hi hdecl
  have hrecord' := h'.function_record hi' hdecl'
  rw [hfailed] at hrecord'
  have hheader : f.header.Matches (termMatching s s' span) f'.header := by
    cases hnames.rel (h.owns hf) (h'.owns hf') hname with
    | function hheader => exact hheader
  -- both failed, or both have types that denote the same
  split at hrecord <;> rename_i hcase
  · rw [if_pos hcase] at hrecord'
    obtain ⟨hvariable, hsignature, why, hwhy⟩ := hrecord
    obtain ⟨hvariable', hsignature', why', hwhy'⟩ := hrecord'
    constructor
    · rw [hvariable, hvariable']
      exact .some .empty
    · rw [hsignature, hsignature']
      exact .none
    · rw [hwhy, hwhy']
      exact fun _ => .some trivial
  · rw [if_neg hcase] at hrecord'
    obtain ⟨sig, hvariable, hsignature, hdenotes⟩ := hrecord
    obtain ⟨sig', hvariable', hsignature', hdenotes'⟩ := hrecord'
    rw [hheader.prototype.term hnames.scope] at hdenotes'
    constructor
    · rw [hvariable, hvariable']
      exact .some (.owned ⟨_, hdenotes, hdenotes'⟩)
    · rw [hsignature, hsignature']
      exact .some ⟨_, hdenotes, hdenotes'⟩
    · rw [hsignature]
      exact nofun

/-- Nothing is known about functions but those of the modules, which are matched. -/
private theorem same_record (hexact : ∀ {a a' b b'}, span a a' → span b b' → (a' = b' ↔ a = b)) {key key' : Span}
    (hkey : span key key') : (s.function key).Alike (termMatching s s' span) (s'.function key') := by
  rcases h.ready.functions key with hnew | ⟨f, hf, rfl⟩
  · rcases h'.ready.functions key' with hnew' | ⟨f', hf', rfl⟩
    · rw [hnew, hnew']
      exact ⟨.none, .none, fun _ => .none⟩
    · obtain ⟨d, hd, hmatch⟩ := hnames.exists_left hf'
      cases hmatch with
      | function hheader =>
        obtain rfl := (hexact hheader.span hkey).mp rfl
        exact h.same_function h' hnames hd.mem hf'.mem hheader.name
  · obtain ⟨d', hd', hmatch⟩ := hnames.exists_right hf
    cases hmatch with
    | function hheader =>
      obtain rfl := (hexact hheader.span hkey).mpr rfl
      exact h.same_function h' hnames hf.mem hd'.mem hheader.name

/-- If names are those of declarations with the same heads, the stores before bodies are checked differ by numbers. -/
theorem renumbered (hexact : ∀ {a a' b b'}, span a a' → span b b' → (a' = b' ↔ a = b)) :
    s.Renumbered (termMatching s s' span) s' where
  span_iff := hexact
  type_iff := by
    rintro t t' u u' ⟨τ, ht, ht'⟩ ⟨υ, hu, hu'⟩
    constructor
    · rintro rfl
      obtain rfl := ht'.unique hu'
      exact h.sound.types.denotes_inj h.distinct ht hu
    · rintro rfl
      obtain rfl := ht.unique hu
      exact h'.sound.types.denotes_inj h'.distinct ht' hu'
  frame_iff := by
    rintro fr _ g _ ⟨rfl, -⟩ ⟨rfl, -⟩
    exact Iff.rfl
  problem _ _ := trivial
  primitive {t} ht := by
    have hname := List.getElem?_eq_getElem ht
    exact ⟨_, .primitive ((h.sound.types.primitives t _).mpr hname),
      .primitive ((h'.sound.types.primitives t _).mpr hname)⟩
  module := ⟨rfl, by decide⟩
  exported := ⟨rfl, by decide⟩
  ordered := ⟨h.sound.types.ordered, h'.sound.types.ordered⟩
  types := fun ⟨_, ht, ht'⟩ => h.same_type h' hnames ht ht'
  frames := by
    rintro fr _ ⟨rfl, hfr⟩
    exact h.same_frame h' hnames hfr
  functions := h.same_record h' hnames hexact

end Concluded

end

end RainCheck

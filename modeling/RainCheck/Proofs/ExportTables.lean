import RainCheck.Proofs.Mirroring
import RainCheck.Proofs.Tables
import RainCheck.Report

/-!
# Tables of exports

The exports of a compiled file can be printed, whatever problems the file has and whatever was asked for.
* (store) A compilation keeps the store sound in each step (`Store.Consistent`), even in the step that ends it early, so
  all that is exported has a text (`Store.Consistent.exportRows`).
* (table) The rows of exports fit into a table whose first two columns are never bounded, and the last one is not filled
  up, so the table is wide enough to be printed.
-/

namespace RainCheck

/-- What holds of the store after any step behind the registration of some declarations. -/
def Store.Consistent (s : Store) : Prop := ∃ L, s.Sound L

/-! ### Compilations -/

section

variable {options : Options} {decls : List Decl} {phase : Phase} {d : Decl} {s : Store} {item item' : Item}
  {items : List Item} {p p' : Progress}

private theorem Phase.Leads.store {Q : Store → Prop}
    (h : phase.Leads options d s (fun _ s' => Q s') fun _ _ s' => Q s') : Q (phase.apply options d s).2.store := by
  unfold Phase.Leads at h
  split at h
  · rename_i heq
    rw [heq]
    exact h
  · rename_i heq
    rw [heq]
    exact h
  · exact h.elim

end

/-! ### Texts of exports -/

namespace Store

variable {L : Listing} {s : Store}

private theorem Sound.fieldText (h : s.Sound L) {field : String × TypeId} (hfield : s.Known field.2) :
    ∃ text, s.fieldText field = .ok text := by
  obtain ⟨text, htext⟩ := h.types.text hfield.lt_size
  exact ⟨_, by rw [Store.fieldText, htext]; rfl⟩

/-- A struct has a text, resolved or not. -/
private theorem Sound.structText (h : s.Sound L) {type : TypeId} (htype : s.Known type) :
    ∃ text, s.structText type = .ok text := by
  obtain ⟨e, hget, he⟩ := htype.get
  rw [Store.structText, hget, ok_bind]
  split
  · rename_i decl fields
    have hfields := (h.types.resolved type decl fields he).1
    obtain ⟨texts, htexts, -⟩ := exists_mapM (Q := fun _ => True) fun field hfield =>
      (h.fieldText (hfields field hfield).1).imp fun _ h => ⟨h, trivial⟩
    exact ⟨_, by rw [htexts, ok_bind]; rfl⟩
  · exact ⟨_, rfl⟩

/-- A type that a declared variable has is one of the types. -/
private theorem Sound.typeOf_lt (h : s.Sound L) {v : Variable} (hv : s.Declares L v) {t : TypeId}
    (ht : (s.typeOf v).value? = some t) : t < s.types.size := by
  unfold Store.Declares at hv
  split at hv
  · -- the type of a function is kept with the function
    rename_i declared hkind
    obtain ⟨held, hheld⟩ := Option.isSome_iff_exists.mp hv.2.2
    rw [Store.typeOf, hkind, VariableKind.isFunction, if_pos rfl, hheld, Option.getD_some] at ht
    rcases h.functions.variableType v.span held hheld with ⟨rfl, -⟩ | ⟨sig, rfl, hsig⟩
    · cases ht
    · obtain rfl : sig = t := Option.some.inj ht
      obtain ⟨params, returns, he, -⟩ := h.functions.signature v.span sig hsig
      exact (List.getElem?_eq_some_iff.mp he).1
  · rename_i hkind
    have hother : v.kind.isFunction = false := by
      cases hv : v.kind <;> first | rfl | exact absurd hv (hkind _)
    rw [Store.typeOf, hother, if_neg (by simp)] at ht
    obtain ⟨t', ht', hsettled⟩ := hv
    rw [ht] at ht'
    cases ht'
    exact hsettled.1.lt_size

/-- The type of a declared variable has a text, if the variable has a type. -/
private theorem Sound.variableText (h : s.Sound L) {v : Variable} (hv : s.Declares L v) :
    ∃ text, s.variableText v = .ok text := by
  rw [Store.variableText]
  split
  · rename_i type htype
    exact h.types.text (h.typeOf_lt hv htype)
  · exact ⟨_, rfl⟩

/-- All that is exported has a row of three texts. -/
theorem Consistent.exportRows (h : s.Consistent) : ∃ rows, s.exportRows = .ok rows ∧ ∀ row ∈ rows, row.length = 3 := by
  obtain ⟨L, hs⟩ := h
  have hlt : FrameId.exported < s.frames.size := Nat.lt_of_lt_of_le (by decide) hs.frames.three_le
  obtain ⟨x, hget, hx⟩ := get_frame hlt
  obtain ⟨structs, hstructs, hstructs'⟩ : ∃ rows, (x.types.mapM fun p => return ["struct", p.1, ← s.structText p.2]) =
      Except.ok rows ∧ ∀ row ∈ rows, row.length = 3 := by
    refine exists_mapM fun p hp => ?_
    obtain ⟨text, htext⟩ := hs.structText (hs.frames.types _ x p.1 p.2 hx hp)
    exact ⟨["struct", p.1, text], by rw [htext]; rfl, rfl⟩
  obtain ⟨functions, hfunctions, hfunctions'⟩ : ∃ rows,
      ((x.values.map (·.2)).mapM fun v => return ["fn", v.name, ← s.variableText v]) = Except.ok rows ∧
        ∀ row ∈ rows, row.length = 3 := by
    refine exists_mapM fun v hv => ?_
    obtain ⟨p, hp, rfl⟩ := List.mem_map.mp hv
    obtain ⟨text, htext⟩ := hs.variableText (hs.frames.values _ x p.1 p.2 hx hp)
    exact ⟨["fn", p.2.name, text], by rw [htext]; rfl, rfl⟩
  refine ⟨structs ++ functions, ?_, fun row hrow => (List.mem_append.mp hrow).elim (hstructs' row) (hfunctions' row)⟩
  simp only [pure_eq_ok] at hstructs hfunctions
  rw [Store.exportRows, Frames.exportedTypes, Frames.exports, Frames.variablesOf, hget]
  simp only [ok_bind, pure_eq_ok, hstructs, hfunctions]

end Store

/-! ### Tables of exports -/

namespace Table

/-- A table of three columns of which the first two are as wide as their longest cells. -/
structure HoldsExports (t : Table) : Prop where
  rectangular : t.Rectangular
  width : t.width = 3
  first : t.Fits 0
  second : t.Fits 1

namespace HoldsExports

variable {t : Table}

/-- A table without rows. -/
private theorem initial : ∃ t, ofWidth 3 = .ok t ∧ t.HoldsExports := by
  refine ⟨{ widths := [0, 0, 0] }, rfl, by simp [Rectangular], rfl, ?_, ?_⟩
  · simp [Fits]
  · simp [Fits]

/-- A change keeps this that bounds no width but that of the last column. -/
private theorem keep (h : t.HoldsExports) {c : Change} (hc : t.Allows c)
    (hbound : ∀ column bound, c = .setMaxWidth column bound → column = 2) :
    ∃ t', t.change c = .ok t' ∧ t'.HoldsExports := by
  obtain ⟨t', ht', hrect, hwidth⟩ := change_ok h.rectangular hc
  have hfits : ∀ column, column ≠ 2 → t.Fits column → t'.Fits column := fun column hne =>
    change_fits (fun bound heq => hne (hbound column bound heq)) ht'
  exact ⟨t', ht', hrect, hwidth.trans h.width, hfits 0 (by decide) h.first, hfits 1 (by decide) h.second⟩

end HoldsExports

end Table

end RainCheck

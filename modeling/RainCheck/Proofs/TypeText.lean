import RainCheck.Proofs.Flawless
import RainCheck.Proofs.Recovering
import RainCheck.Proofs.Spelling

/-!
# The texts of types

In a module without problems the text of a type tells the type: it can be read, and what is read stands for that type
and no other one (`text_resolves`).
* The text of a written type spells its symbols (`TypeExpr.renders`), so it is read as it is written.
* Every type is written by an expression (`Store.Writes`).  By induction on its parts, this is resolved to the type:
  names are found in the module, and references and function types among the types that are there already.

The type of expressions that never complete has no name, so it has to be left out.
-/

namespace RainCheck

/-! ### Texts of written types -/

mutual

/-- The text of a written type. -/
def TypeExpr.text : TypeExpr → String
  | .named _ name => name
  | .reference _ inner => "&" ++ inner.text
  | .function _ params returns => Types.functionText (TypeExpr.textAll params) (TypeExpr.textReturns returns)

/-- The texts of written types. -/
def TypeExpr.textAll : List TypeExpr → List String
  | [] => []
  | e :: rest => e.text :: TypeExpr.textAll rest

/-- The text of the type that a function returns. -/
def TypeExpr.textReturns : Option TypeExpr → Option String
  | none => none
  | some e => some e.text

end

/-- The names in a written type are spelled like names. -/
def TypeExpr.Named (e : TypeExpr) : Prop := ∀ n ∈ e.occurrences false, IsName n.2

/-- A letter is no blank. -/
private theorem Token.not_blank {c : Char} (hc : letter.startsWith c = true) : blankCharacter.startsWith c = false := by
  by_contra hblank
  have hcases : ' ' = c ∨ '\t' = c ∨ '\r' = c ∨ '\n' = c := by
    simpa [blankCharacter, Scanner.startsWith, Scanner.someStartsWith, or_iff_not_imp_left] using hblank
  rcases hcases with rfl | rfl | rfl | rfl <;> exact absurd hc (by decide)

/-- A text spells symbols, if no letter or digit follows, and does not begin with a blank. -/
structure Renders (text : String) (xs : List Symbol) : Prop where
  starts : ∃ c cs, text.toList = c :: cs ∧ Token.blankCharacter.startsWith c = false
  spells : ∀ rest ys, Token.wordCharacter.EndsBefore rest → Spells rest ys → Spells (text.toList ++ rest) (xs ++ ys)

namespace Renders

variable {text : String} {rest : List Char} {xs ys : List Symbol}

private theorem endsBefore (h : Renders text xs) (rest : List Char) :
    Token.blankCharacter.EndsBefore (text.toList ++ rest) := by
  obtain ⟨c, cs, htext, hc⟩ := h.starts
  rw [htext]
  rintro d hd
  cases hd
  exact hc

private theorem name (h : IsName text) : Renders text [.name text] where
  starts := by
    have hword := h.word
    cases htext : text.toList with
    | nil =>
      rw [htext] at hword
      cases hword
    | cons c cs =>
      rw [htext] at hword
      exact ⟨c, cs, rfl, Token.not_blank (Bool.and_eq_true_iff.mp hword).1⟩
  spells rest ys hrest hys := .name h hrest hys

private theorem reference (h : Renders text xs) : Renders ("&" ++ text) (.mark .ampersand :: xs) where
  starts := ⟨'&', text.toList, by rw [String.toList_append]; rfl, by decide⟩
  spells rest ys hrest hys := by
    rw [String.toList_append, List.append_assoc]
    exact .ampersand (h.spells rest ys hrest hys)

private theorem endsBefore_joined (h : Renders text xs) (texts : List (List Char)) (rest : List Char) :
    Token.blankCharacter.EndsBefore ([',', ' '].intercalate (text.toList :: texts) ++ rest) := by
  cases texts with
  | nil =>
    rw [List.intercalate_singleton]
    exact h.endsBefore rest
  | cons next texts =>
    rw [List.intercalate_cons_cons, List.append_assoc, List.append_assoc]
    exact h.endsBefore _

/-- Texts with commas and blanks between them. -/
private theorem joined {texts : List String} {items : List (List Symbol)} (h : List.Forall₂ Renders texts items)
    (hrest : Token.wordCharacter.EndsBefore rest) (hys : Spells rest ys) :
    Spells ([',', ' '].intercalate (texts.map String.toList) ++ rest) (Symbol.listed true items ++ ys) := by
  induction h with
  | nil => exact hys
  | @cons text item texts items htext htexts ih =>
    rw [Symbol.listed, List.append_assoc, List.map_cons]
    cases htexts with
    | nil =>
      rw [List.map_nil, List.intercalate_singleton]
      exact htext.spells rest ys hrest hys
    | cons hnext =>
      rw [List.map_cons, List.intercalate_cons_cons, List.append_assoc, List.append_assoc]
      refine htext.spells _ _ (fun c hc => by cases hc; decide) (.mark (m := (.comma, ",")) (by decide) (.blank ?_ ih))
      exact hnext.endsBefore_joined _ rest

/-- The result of a function, behind an arrow. -/
private theorem result (h : Renders text xs) (hrest : Token.wordCharacter.EndsBefore rest) (hys : Spells rest ys) :
    Spells ((" -> " ++ text).toList ++ rest) (.mark .arrow :: xs ++ ys) := by
  rw [String.toList_append, List.append_assoc]
  refine .blank (fun c hc => by cases hc; decide) (.mark (m := (.arrow, "->")) (by decide) (.blank ?_ ?_))
  · exact h.endsBefore rest
  · exact h.spells rest ys hrest hys

/-- The type of a function; a result without a value is left out. -/
private theorem function {params : List String} {returns : Option String} {items : List (List Symbol)}
    {result : Option (List Symbol)} (hparams : List.Forall₂ Renders params items)
    (hreturns : Option.Rel Renders returns result) :
    Renders (Types.functionText params returns) (.keyword .fnWord :: .mark .leftParen :: Symbol.listed true items ++
      .mark .rightParen :: result.elim [] (.mark .arrow :: ·)) := by
  have htext : (Types.functionText params returns).toList = Keyword.fnWord.text.toList ++
      '(' :: ([',', ' '].intercalate (params.map String.toList) ++ ')' :: (returns.elim "" (" -> " ++ ·)).toList) := by
    cases returns <;> simp [Types.functionText, Keyword.text, String.toList_intercalate]
  refine ⟨⟨'f', _, htext, by decide⟩, fun rest ys hrest hys => ?_⟩
  rw [htext]
  simp only [List.append_assoc, List.cons_append]
  refine .keyword .fnWord (fun c hc => by cases hc; decide) (.leftParen ?_)
  refine joined hparams (fun c hc => by cases hc; decide) (.rightParen ?_)
  cases hreturns with
  | none => exact hys
  | some h => exact h.result hrest hys

end Renders

mutual

/-- The text of a written type spells its symbols. -/
theorem TypeExpr.renders (e : TypeExpr) (behind : Bool) (h : ∀ n ∈ e.occurrences behind, IsName n.2) :
    Renders e.text e.symbols := by
  match e with
  | .named _ name => exact .name (h (behind, name) (by simp [occurrences]))
  | .reference _ inner => exact .reference (inner.renders true h)
  | .function _ params returns =>
    have hparams := TypeExpr.renders_all params fun n hn => h n (by simp [occurrences, hn])
    have hreturns : Option.Rel Renders (textReturns returns) (returns.map symbols) := by
      match returns with
      | none => exact .none
      | some e => exact .some (e.renders false fun n hn => h n (by simp [occurrences, optionOccurrences, hn]))
    have hsymbols : symbolsReturns returns = (returns.map symbols).elim [] (.mark .arrow :: ·) := by
      cases returns <;> rfl
    rw [symbols, hsymbols]
    exact .function hparams hreturns

private theorem TypeExpr.renders_all (es : List TypeExpr) (h : ∀ n ∈ occurrencesAll es, IsName n.2) :
    List.Forall₂ Renders (textAll es) (symbolsAll es) := by
  match es with
  | [] => exact .nil
  | e :: rest =>
    exact .cons (e.renders false fun n hn => h n (by simp [occurrencesAll, hn]))
      (renders_all rest fun n hn => h n (by simp [occurrencesAll, hn]))

end

/-- A text is that of one type, and of nothing else. -/
def ParsesAs (text : String) (e : TypeExpr) : Prop :=
  ∃ ts rest, SourceFile.tokens ⟨"type", text.toList⟩ = .ok ts ∧ Parser.type.run { tokens := ts } = .ok (e, rest) ∧
    rest.tokens.map Token.kind = [.endOfInput]

/-- The text of a written type is read as the type. -/
private theorem TypeExpr.parses (e : TypeExpr) (h : ∀ behind, ∀ n ∈ e.occurrences behind, IsName n.2) :
    ∃ e', ParsesAs e.text e' ∧ Parser.SameType e e' := by
  have hspells := (e.renders false (h false)).spells [] [] nofun .nil
  rw [List.append_nil, List.append_nil] at hspells
  let file : SourceFile := ⟨"type", e.text.toList⟩
  obtain ⟨ts, htokens, hsaid⟩ : ∃ ts, file.tokens = .ok ts ∧ _ := SourceFile.tokens_of_spells hspells
  obtain ⟨ts', hstream⟩ : ∃ ts', file.tokens = .ok ts' ∧ TokenStream ts' := by
    rcases file.tokens_cases with hstream | ⟨d, hrefused⟩
    · exact hstream
    · rw [htokens] at hrefused
      cases hrefused
  obtain rfl : ts = ts' := Except.ok.inj (htokens.symm.trans hstream.1)
  obtain ⟨n, hstanding, hend⟩ := (Standing.of_says (k := 0) hsaid).append_inv
  obtain ⟨t, ht, hend, -⟩ := hend.cons_inv
  have hkind : t.kind = .endOfInput := hend.kind
  obtain ⟨e', rest, hrun, hrest, hsame⟩ :=
    Parser.recovers_type hstream.2 e hstanding ht (by rw [hkind]; decide) { tokens := ts } ⟨rfl, nofun⟩
  refine ⟨e', ⟨ts, rest, htokens, hrun, ?_⟩, hsame⟩
  have hlast : ts.length ≤ n + 1 := by
    by_contra hlt
    exact hstream.2.kind_of_lt ht (by omega) hkind
  rw [hrest.tokens_cons ht, List.drop_eq_nil_of_le hlast, List.map_singleton, hkind]

/-! ### Texts of types -/

/-- A type is another one, or is made of types of which one involves the other one. -/
inductive Types.Involves (ts : Types) (part : TypeId) : TypeId → Prop where
  | self : Involves ts part part
  | step {id p : TypeId} {e : TypeEntry} (he : ts.entries[id]? = some e) (hp : p ∈ e.parts) (h : Involves ts part p) :
      Involves ts part id

/-- A type that no type is made of is only involved in itself. -/
private theorem Types.Involves.eq_self {ts : Types} {part id : TypeId} (h : ts.Involves part id)
    (hparts : ∀ e ∈ ts.entries, part ∉ e.parts) : id = part := by
  induction h with
  | self => rfl
  | step he hp _ ih => exact absurd (ih ▸ hp) (hparts _ (List.mem_of_getElem? he))

/-- What is known of a store behind a compilation without problems, if no struct has the name of a primitive type. -/
structure Store.Readable (decls : List Decl) (s : Store) : Prop where
  sound : s.Sound (moduleListing decls)
  distinct : (decls.map Decl.name).Nodup
  decided : ∀ d, .struct d ∈ decls → s.Decided false d
  names : ∀ d, .struct d ∈ decls → IsName d.name
  plain : ∀ d, .struct d ∈ decls → Frames.builtinTypes.lookup d.name = none

namespace Store.Readable

open RainCheck.Action

variable {decls : List Decl} {s : Store} {id : TypeId} (h : s.Readable decls)

include h

/-- A struct has its fields, and its name is a name of it. -/
private theorem struct {d : StructDecl} {state : StructState} (he : s.typeAt? id = some (.struct d state)) :
    .struct d ∈ decls ∧ (∃ fields, state = .resolved fields) ∧
      s.frames.lookupType FrameId.module d.name = .ok (some id) := by
  obtain ⟨hrecord, hscope⟩ := h.sound.types.registered h.distinct id d state he
  have hmem : .struct d ∈ decls := by
    have hscope : moduleScope decls d.name = some (some d) := hscope
    unfold moduleScope at hscope
    split at hscope
    · rename_i d' hfind
      cases hscope
      exact List.mem_of_find?_eq_some hfind
    · simp at hscope
  refine ⟨hmem, ?_, ?_⟩
  · obtain ⟨t, state', hrecord', he', hstate⟩ := h.decided d hmem
    rw [hrecord] at hrecord'
    cases hrecord'
    rw [he] at he'
    cases he'
    exact hstate
  · have hmeans := h.sound.frames.scope trivial d.name
    rw [show (moduleListing decls).scope d.name = some (some d) from hscope] at hmeans
    obtain ⟨t, e, hlookup, he', hdecl, -⟩ := hmeans
    cases e with
    | struct d' state' =>
      obtain rfl : d' = d := by simpa [TypeEntry.struct?] using hdecl
      have hrecord' := (h.sound.types.registered h.distinct t d' state' he').1
      rw [hrecord] at hrecord'
      cases hrecord'
      exact hlookup
    | _ => cases hdecl

/-- The name of a primitive type that can be written is a name of it. -/
private theorem primitive {name : String} (he : s.typeAt? id = some (.primitive name)) (hid : id ≠ TypeId.never) :
    IsName name ∧ s.frames.lookupType FrameId.module name = .ok (some id) := by
  have hname := (h.sound.types.primitives id name).mp he
  have hbuiltin : IsName name ∧ Frames.builtinTypes.lookup name = some id := by
    match id with
    | 0 | 2 | 3 | 4 | 5 | 6 =>
      cases hname
      exact ⟨⟨by decide, by decide⟩, by decide⟩
    | 1 => exact absurd rfl hid
    | _ + 7 => cases hname
  refine ⟨hbuiltin.1, ?_⟩
  have hscope : (moduleListing decls).scope name = some none := by
    change moduleScope decls name = some none
    unfold moduleScope
    split
    · rename_i d hfind
      have hplain := h.plain d (List.mem_of_find?_eq_some hfind)
      have hsame : (Decl.struct d).name = name := by simpa using List.find?_some hfind
      rw [show d.name = name from hsame, hbuiltin.2] at hplain
      cases hplain
    · rw [hbuiltin.2]
      rfl
  have hmeans := h.sound.frames.scope trivial name
  rw [hscope] at hmeans
  obtain ⟨t, e, hlookup, -, -, ht⟩ := hmeans
  rw [hbuiltin.2] at ht
  cases ht rfl
  exact hlookup

/-- All types can be used by value as they are. -/
private theorem completes {depth : Nat} (use : Span) (hid : id < s.types.size) :
    (completeWithin (depth + 1) use id).Yields s id s := by
  have he : s.typeAt? id = some s.types.entries[id] := List.getElem?_eq_getElem hid
  rw [completeWithin, yields_bind]
  refine ⟨s.types.entries[id], s, yields_fromTypes.mpr ⟨itemAt_eq_ok_iff.mpr he, rfl⟩, ?_⟩
  cases hentry : s.types.entries[id] with
  | struct d state =>
    obtain ⟨-, ⟨fields, rfl⟩, -⟩ := h.struct (hentry ▸ he)
    exact yields_pure.mpr ⟨rfl, rfl⟩
  | _ => exact yields_pure.mpr ⟨rfl, rfl⟩

/-- A reference or function type that is asked for is found. -/
private theorem interned {e : TypeEntry} {p : TypeEntry → Bool} (hp : ∀ x, p x = true ↔ x = e)
    (hstruct : e.struct? = none)
    (he : s.typeAt? id = some e) : (updateTypes (·.intern p e)).Yields s id s := by
  rw [yields_updateTypes]
  rcases (Types.intern_cases hp : _ ∨ s.types.intern p e = _ ∧ _) with ⟨id', hintern, hentry⟩ | ⟨-, hfresh⟩
  · obtain rfl := h.sound.types.once id' id e hentry he hstruct
    rw [hintern]
    exact ⟨rfl, rfl⟩
  · exact absurd (List.mem_of_getElem? he) hfresh

end Store.Readable

/-- A type is written by an expression: its text is that of the expression, which stands for it in the module. -/
structure Store.Writes (s : Store) (depth : Nat) (id : TypeId) (e : TypeExpr) : Prop where
  text : s.types.textWithin depth id = .ok e.text
  names : ∀ behind, ∀ n ∈ e.occurrences behind, IsName n.2
  resolved : ∀ bound shallow e', Parser.SameType e e' →
    (Action.resolveTypeWith (Action.completeWithin (bound + 1)) FrameId.module shallow e').Yields s id s

/-- Types that are written one behind the other. -/
private theorem Store.Writes.all {s : Store} {depth : Nat} {ids : List TypeId}
    (hids : ∀ t ∈ ids, ∃ e, s.Writes depth t e) :
    ∃ es, ids.mapM (s.types.textWithin depth) = .ok (TypeExpr.textAll es) ∧
      (∀ n ∈ TypeExpr.occurrencesAll es, IsName n.2) ∧
      ∀ bound es', List.Forall₂ Parser.SameType es es' →
        (Action.resolveTypesWith (Action.completeWithin (bound + 1)) FrameId.module es').Yields s ids s := by
  induction ids with
  | nil =>
    refine ⟨[], rfl, by simp [TypeExpr.occurrencesAll], fun bound es' hsame => ?_⟩
    cases hsame
    rw [Action.resolveTypesWith]
    exact Action.yields_pure.mpr ⟨rfl, rfl⟩
  | cons t ids ih =>
    obtain ⟨e, he⟩ := hids t (by simp)
    obtain ⟨es, htexts, hnames, hresolved⟩ := ih fun u hu => hids u (by simp [hu])
    refine ⟨e :: es, ?_, ?_, fun bound es' hsame => ?_⟩
    · rw [List.mapM_cons, he.text, ok_bind, htexts]
      rfl
    · rw [TypeExpr.occurrencesAll, List.forall_mem_append]
      exact ⟨he.names false, hnames⟩
    · cases hsame with
      | cons hfirst hrest =>
        rw [Action.resolveTypesWith, Action.yields_bind]
        refine ⟨t, s, he.resolved bound false _ hfirst, Action.yields_bind.mpr ⟨ids, s, hresolved bound _ hrest, ?_⟩⟩
        exact Action.yields_pure.mpr ⟨rfl, rfl⟩

namespace Store.Readable

open RainCheck.Action

variable {decls : List Decl} {s : Store} {id : TypeId} (h : s.Readable decls)

include h

/-- A name that is found is written by the name. -/
private theorem writes_name {depth : Nat} {name : String} (hname : IsName name) (hid : id < s.types.size)
    (hlookup : s.frames.lookupType FrameId.module name = .ok (some id))
    (htext : s.types.textWithin depth id = .ok name) : s.Writes depth id (.named default name) where
  text := htext
  names behind n hn := by
    rw [TypeExpr.occurrences, List.mem_singleton] at hn
    exact hn ▸ hname
  resolved bound shallow e' hsame := by
    cases hsame with
    | named =>
      rw [resolveTypeWith, yields_bind]
      refine ⟨s, s, yields_get.mpr ⟨rfl, rfl⟩, yields_bind.mpr ⟨some id, s, yields_lift.mpr ⟨hlookup, rfl⟩, ?_⟩⟩
      cases shallow with
      | true => exact yields_pure.mpr ⟨rfl, rfl⟩
      | false => exact h.completes _ hid

private theorem writes_reference {depth : Nat} {inner : TypeId} {e : TypeExpr}
    (he : s.typeAt? id = some (.reference inner))
    (hwrites : s.Writes depth inner e) : s.Writes (depth + 1) id (.reference default e) where
  text := by
    have hget : s.types.get id = .ok (.reference inner) := itemAt_eq_ok_iff.mpr he
    simp only [Types.textWithin, hget, ok_bind, hwrites.text]
    rfl
  names _ := hwrites.names true
  resolved bound shallow e' hsame := by
    cases hsame with
    | reference _ hinner =>
      rw [resolveTypeWith, yields_bind]
      exact ⟨inner, s, hwrites.resolved bound true _ hinner, h.interned (fun _ => TypeEntry.isReferenceTo_iff) rfl he⟩

private theorem writes_function {depth : Nat} {params : List TypeId} {returns : TypeId}
    (he : s.typeAt? id = some (.function params returns)) (hparams : ∀ p ∈ params, ∃ e, s.Writes depth p e)
    (hreturns : ∃ e, s.Writes depth returns e) : ∃ e, s.Writes (depth + 1) id e := by
  have hget : s.types.get id = .ok (.function params returns) := itemAt_eq_ok_iff.mpr he
  have hfound : (updateTypes (·.functionOf params returns)).Yields s id s :=
    h.interned (fun _ => TypeEntry.isFunctionOf_iff) rfl he
  obtain ⟨es, htexts, hnames, hresolved⟩ := Store.Writes.all hparams
  obtain ⟨e, hwrites⟩ := hreturns
  by_cases hvoid : returns = TypeId.void
  · refine ⟨.function default es none, ?_, fun _ n hn => hnames n ?_, fun bound shallow e' hsame => ?_⟩
    · simp only [Types.textWithin, hget, ok_bind, htexts, if_pos hvoid]
      rfl
    · simpa [TypeExpr.occurrences, TypeExpr.optionOccurrences] using hn
    · cases hsame with
      | function _ hps hr =>
        cases hr
        rw [resolveTypeWith, yields_bind]
        refine ⟨params, s, hresolved bound _ hps, yields_bind.mpr ⟨returns, s, ?_, hfound⟩⟩
        rw [resolveReturnsWith, hvoid]
        exact yields_pure.mpr ⟨rfl, rfl⟩
  · refine ⟨.function default es (some e), ?_, fun _ n hn => ?_, fun bound shallow e' hsame => ?_⟩
    · simp only [Types.textWithin, hget, ok_bind, htexts, if_neg hvoid, hwrites.text]
      rfl
    · rw [TypeExpr.occurrences, TypeExpr.optionOccurrences, List.mem_append] at hn
      exact hn.elim (hnames n) (hwrites.names false n)
    · cases hsame with
      | function _ hps hr =>
        cases hr with
        | some hr =>
          rw [resolveTypeWith, yields_bind]
          refine ⟨params, s, hresolved bound _ hps, yields_bind.mpr ⟨returns, s, ?_, hfound⟩⟩
          rw [resolveReturnsWith]
          exact hwrites.resolved bound false _ hr

/-- Every type that involves no type of expressions that never complete is written by an expression. -/
private theorem writes (depth : Nat) (hdepth : id < depth) (hid : id < s.types.size)
    (hnever : ¬s.types.Involves TypeId.never id) : ∃ e, s.Writes depth id e := by
  induction depth generalizing id with
  | zero => exact absurd hdepth (Nat.not_lt_zero _)
  | succ depth ih =>
    have he : s.typeAt? id = some s.types.entries[id] := List.getElem?_eq_getElem hid
    have hget : s.types.get id = .ok s.types.entries[id] := itemAt_eq_ok_iff.mpr he
    have hpart : ∀ part : TypeId, part < id → part < depth := fun part hlt =>
      Nat.lt_of_lt_of_le hlt (Nat.le_of_lt_succ hdepth)
    have hnone : ∀ part ∈ s.types.entries[id].parts, ¬s.types.Involves TypeId.never part := fun part hmem hinner =>
      hnever (.step he hmem hinner)
    cases hentry : s.types.entries[id] with
    | primitive name =>
      rw [hentry] at he hget
      obtain ⟨hname, hlookup⟩ := h.primitive he (fun heq => hnever (heq ▸ .self))
      exact ⟨_, h.writes_name hname hid hlookup (by rw [Types.textWithin, hget]; rfl)⟩
    | struct d state =>
      rw [hentry] at he hget
      obtain ⟨hd, -, hlookup⟩ := h.struct he
      exact ⟨_, h.writes_name (h.names d hd) hid hlookup (by rw [Types.textWithin, hget]; rfl)⟩
    | reference inner =>
      rw [hentry] at he
      obtain ⟨hlt, hknown⟩ := h.sound.types.references id inner he
      obtain ⟨e, hwrites⟩ := ih (hpart inner hlt) hknown.lt_size (hnone inner (hentry ▸ List.mem_singleton.mpr rfl))
      exact ⟨_, h.writes_reference he hwrites⟩
    | function params returns =>
      rw [hentry] at he
      obtain ⟨hparams, hlt, hsettled⟩ := h.sound.types.functionTypes id params returns he
      refine h.writes_function he (fun p hp => ?_) ?_
      · exact ih (hpart p (hparams p hp).1) (hparams p hp).2.1.lt_size (hnone p (hentry ▸ List.mem_cons_of_mem _ hp))
      · exact ih (hpart returns hlt) hsettled.1.lt_size (hnone returns (hentry ▸ List.mem_cons_self))

end Store.Readable

/-! ### Modules without problems -/

private theorem DerivesModule.isName {decls : List Decl} {used : List Token} (h : DerivesModule decls used)
    (hused : ∀ t ∈ used, t.kind = .identifier → IsName t.text) : ∀ d, .struct d ∈ decls → IsName d.name := by
  have hstruct : ∀ {exported d used}, DerivesDecl exported (.struct d) used →
      (∀ t ∈ used, t.kind = .identifier → IsName t.text) → IsName d.name := by
    intro exported d used hdecl hused
    cases hdecl with
    | struct hdecl =>
      cases hdecl with
      | struct _ hname => exact hused _ (by simp) hname
  induction h with
  | nil => exact nofun
  | hidden hdecl _ ih =>
    rw [List.forall_mem_append] at hused
    intro d hd
    rcases List.mem_cons.mp hd with rfl | hd
    · exact hstruct hdecl hused.1
    · exact ih hused.2 d hd
  | exported _ hdecl _ ih =>
    rw [List.cons_append, List.forall_mem_cons, List.forall_mem_append] at hused
    intro d hd
    rcases List.mem_cons.mp hd with rfl | hd
    · exact hstruct hdecl hused.2.1
    · exact ih hused.2.2 d hd

private theorem SourceFile.readable {file : SourceFile} {options : Options} {decls : List Decl}
    {u : CompiledUnit} {m : Module}
    (hdecls : file.declarations = .ok decls) (hcompile : file.compile options = .ok u) (herrors : u.errors = [])
    (hm : u.module = some m) (hplain : ∀ d, .struct d ∈ decls → Frames.builtinTypes.lookup d.name = none) :
    m.store.Readable decls := by
  obtain ⟨m', decls', hm', hdecls', hdistinct, hsound, hdecided, -⟩ := SourceFile.flawless hcompile herrors
  rw [hm] at hm'
  cases hm'
  rw [hdecls] at hdecls'
  cases hdecls'
  refine ⟨hsound, hdistinct, hdecided, ?_, hplain⟩
  rcases file.declarations_cases with ⟨decls', used, last, hdecls', htokens, -, -, hmodule⟩ | ⟨d, hrefused⟩
  · rw [hdecls] at hdecls'
    cases hdecls'
    exact hmodule.isName fun t ht => file.tokens_named htokens t (List.mem_append_left _ ht)
  · rw [hdecls] at hrefused
    cases hrefused

/-- A text is that of one type at most. -/
private theorem ParsesAs.unique {text : String} {e e' : TypeExpr} (h : ParsesAs text e)
    (h' : ParsesAs text e') : e' = e := by
  obtain ⟨ts, rest, htokens, hrun, -⟩ := h
  obtain ⟨ts', rest', htokens', hrun', -⟩ := h'
  rw [htokens] at htokens'
  cases htokens'
  rw [hrun] at hrun'
  cases hrun'
  rfl

/-- The text of a type is read as an expression that stands for it, and nothing is added to the module for that. -/
private theorem Store.Readable.text_parses {decls : List Decl} {s : Store} {id : TypeId} (h : s.Readable decls)
    (hid : id < s.types.size) (hnever : ¬s.types.Involves TypeId.never id) :
    ∃ text e, s.types.text id = .ok text ∧ ParsesAs text e ∧
      (Action.resolveType FrameId.module e).runOn s = ⟨.ok id, s⟩ := by
  obtain ⟨e, hwrites⟩ := h.writes (id + 1) (Nat.lt_succ_self id) hid hnever
  obtain ⟨e', hparses, hsame⟩ := e.parses hwrites.names
  refine ⟨e.text, e', hwrites.text, hparses, ?_⟩
  have hyields : (Action.resolveType FrameId.module e').Yields s id s := by
    have hbound : Action.depthBound.Yields s (2 * s.types.size + 1 + 1) s :=
      Action.yields_bind.mpr ⟨s, s, Action.yields_get.mpr ⟨rfl, rfl⟩, Action.yields_pure.mpr ⟨rfl, rfl⟩⟩
    exact Action.yields_bind.mpr ⟨_, s, hbound, hwrites.resolved _ false e' hsame⟩
  unfold Action.runOn
  rw [show (Action.resolveType FrameId.module e').run s = _ from hyields]

/--
Without problems, and if no struct has the name of a primitive type, the text of a type that does not involve the type
of expressions that never complete is read as one type.  In the module this is resolved to the same type, and nothing is
added.  So two of these types have different texts.
-/
theorem text_resolves (file : SourceFile) (options : Options) (decls : List Decl) (u : CompiledUnit) (m : Module)
    (hdecls : file.declarations = .ok decls) (hcompile : file.compile options = .ok u) (herrors : u.errors = [])
    (hm : u.module = some m)
    (hplain : ∀ d, .struct d ∈ decls → d.name ∉ ["void", "bool", "i32", "i64", "f32", "f64"]) (id : TypeId)
    (hid : id < m.store.types.size) (hnever : ¬m.store.types.Involves TypeId.never id) :
    (∃ text e, m.store.types.text id = .ok text ∧ ParsesAs text e ∧
      (Action.resolveType FrameId.module e).runOn m.store = ⟨.ok id, m.store⟩) ∧
    ∀ id', id' < m.store.types.size → ¬m.store.types.Involves TypeId.never id' →
      m.store.types.text id' = m.store.types.text id → id' = id := by
  have hreadable : m.store.Readable decls := by
    refine SourceFile.readable hdecls hcompile herrors hm fun d hd => ?_
    refine List.lookup_eq_none_iff.mpr fun p hp => ?_
    have hnames : ∀ p ∈ Frames.builtinTypes, p.1 ∈ ["void", "bool", "i32", "i64", "f32", "f64"] := by decide
    simpa using fun heq : d.name = p.1 => hplain d hd (heq ▸ hnames p hp)
  obtain ⟨text, e, htext, hparses, hrun⟩ := hreadable.text_parses hid hnever
  refine ⟨⟨text, e, htext, hparses, hrun⟩, fun id' hid' hnever' heq => ?_⟩
  obtain ⟨text', e', htext', hparses', hrun'⟩ := hreadable.text_parses hid' hnever'
  rw [htext, htext'] at heq
  cases heq
  obtain rfl := hparses.unique hparses'
  rw [hrun] at hrun'
  cases hrun'
  rfl

/-- A struct with a reference to itself and a function on such references. -/
def linkedStruct : SourceFile := ⟨"linked", "struct P{next:&P,f:fn(&P,i32)->&bool}".toList⟩

theorem text_resolves_linked : ∃ decls u m, linkedStruct.declarations = .ok decls ∧ linkedStruct.compile {} = .ok u ∧
    u.errors = [] ∧ u.module = some m ∧
    (∀ d, .struct d ∈ decls → d.name ∉ ["void", "bool", "i32", "i64", "f32", "f64"]) ∧ 10 < m.store.types.size ∧
    ¬m.store.types.Involves TypeId.never 10 ∧
    (∃ text e, m.store.types.text 10 = .ok text ∧ ParsesAs text e ∧
      (Action.resolveType FrameId.module e).runOn m.store = ⟨.ok 10, m.store⟩) ∧
    ∀ id', id' < m.store.types.size → ¬m.store.types.Involves TypeId.never id' →
      m.store.types.text id' = m.store.types.text 10 → id' = 10 := by
  have hread :
      linkedStruct.declarations.toOption.any (fun decls => decls.all (·.name == "P")) = true := by decide +kernel
  have hrun : (linkedStruct.compile {}).toOption.any (fun u => u.errors.isEmpty && u.module.any fun m =>
      decide (10 < m.store.types.size) && m.store.types.entries.all fun e =>
          decide (TypeId.never ∉ e.parts)) = true := by
    decide +kernel
  cases hdecls : linkedStruct.declarations with
  | error stop =>
    rw [hdecls] at hread
    cases hread
  | ok decls =>
    cases hcompile : linkedStruct.compile {} with
    | error f =>
      rw [hcompile] at hrun
      cases hrun
    | ok u =>
      rw [hdecls] at hread
      rw [hcompile] at hrun
      obtain ⟨herrors, hmodule⟩ := Bool.and_eq_true_iff.mp hrun
      obtain ⟨m, hm, hsize⟩ := (Option.any_eq_true _ _).mp hmodule
      obtain ⟨hsize, hparts⟩ := Bool.and_eq_true_iff.mp hsize
      have hplain : ∀ d, .struct d ∈ decls → d.name ∉ ["void", "bool", "i32", "i64", "f32", "f64"] := by
        intro d hd
        have hname : (Decl.struct d).name = "P" := eq_of_beq (List.all_eq_true.mp hread _ hd)
        rw [show d.name = "P" from hname]
        decide
      have hnever : ¬m.store.types.Involves TypeId.never 10 := fun h => by
        have heq := h.eq_self fun e he => of_decide_eq_true (List.all_eq_true.mp hparts e he)
        cases heq
      refine ⟨decls, u, m, rfl, rfl, List.isEmpty_iff.mp herrors, hm, hplain, of_decide_eq_true hsize, hnever, ?_⟩
      exact text_resolves linkedStruct {} decls u m hdecls hcompile (List.isEmpty_iff.mp herrors) hm hplain 10
        (of_decide_eq_true hsize) hnever

end RainCheck

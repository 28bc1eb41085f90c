import RainCheck.Proofs.Spelling

/-!
# Writing tokens apart

Tokens that are written again with blanks and comments between them are read again (`SourceFile.tokens_of_separated`).
* Each token is recognised by its own text, whatever stands behind the blank that follows it (`Lexeme.Matched.munches`).
* What separates them is left out, whatever stands in its comments (`Layout.spells`).
-/

namespace RainCheck

/-! ### Numbers -/

namespace Token

/-- Whether a text does not go on with what could belong to a number. -/
structure EndsNumber (rest : List Char) : Prop where
  character : numberCharacter.EndsBefore rest
  point : rest.head? ≠ some '.'

variable {text whole places rest : List Char}

/-- What the rule of floating point numbers does, part by part. -/
private theorem run_float_eq (text : List Char) : float.run text = (do
    let whole ← integer.run text
    if whole = 0 then return 0
    let point ← (Scanner.exactly ['.']).run (← Scanner.behind whole text)
    if point = 0 then return 0
    let places ← integer.run (← Scanner.behind (whole + point) text)
    if places = 0 then return 0
    return whole + point + places) := by
  simp only [float, Scanner.run, Scanner.runAll, Scanner.behind, ok_bind, Nat.zero_add, pure_eq_ok]

/-- Without a point an integer is no floating point number. -/
private theorem run_float_integer (htext : isInteger text = true) (hrest : EndsNumber rest) :
    float.run (text ++ rest) = .ok 0 := by
  have hpoint : (Scanner.exactly ['.']).run rest = .ok 0 := by
    cases rest with
    | nil => rfl
    | cons c rest =>
      have hne : '.' ≠ c := fun h => hrest.point (by rw [h]; rfl)
      simp [Scanner.run, List.isPrefixOf, hne]
  have hpos := length_pos_of_isInteger htext
  rw [run_float_eq, run_integer htext hrest.character, ok_bind, if_neg (by omega),
    Scanner.behind_ok (by simp), ok_bind, List.drop_left, hpoint]
  rfl

theorem run_float (hwhole : isInteger whole = true) (hplaces : isInteger places = true)
    (hrest : numberCharacter.EndsBefore rest) :
    float.run (whole ++ '.' :: places ++ rest) = .ok (whole ++ '.' :: places).length := by
  have hends : numberCharacter.EndsBefore ('.' :: (places ++ rest)) := fun c hc => by cases hc; decide
  have hpoint : (Scanner.exactly ['.']).run ('.' :: (places ++ rest)) = .ok 1 := by simp [Scanner.run, List.isPrefixOf]
  have hpos := length_pos_of_isInteger hwhole
  have hpos' := length_pos_of_isInteger hplaces
  have hdrop : (whole ++ '.' :: (places ++ rest)).drop (whole.length + 1) = places ++ rest := by simp [List.drop_append]
  rw [List.append_assoc, List.cons_append, run_float_eq, run_integer hwhole hends, ok_bind, if_neg (by omega),
    Scanner.behind_ok (by simp), ok_bind, List.drop_left, hpoint, ok_bind, if_neg (by omega),
    Scanner.behind_ok (by simp), ok_bind, hdrop, run_integer hplaces hrest, ok_bind, if_neg (by omega)]
  simp only [List.length_append, List.length_cons, pure_eq_ok, Except.ok.injEq]
  omega

/-- A floating point number consists of two integers with a point between them. -/
theorem parts_of_run_float {n : Nat} (hrun : float.run text = .ok n) (hn : 0 < n) :
    ∃ whole places, text.take n = whole ++ '.' :: places ∧ isInteger whole = true ∧ isInteger places = true := by
  rw [run_float_eq] at hrun
  obtain ⟨w, hw, hwle⟩ := Scanner.run_le integer (by decide) text
  rw [hw, ok_bind] at hrun
  by_cases hw0 : w = 0
  · rw [if_pos hw0] at hrun
    cases hrun
    cases hn
  rw [if_neg hw0, Scanner.behind_ok hwle, ok_bind] at hrun
  by_cases hpoint : (['.'] : List Char) <+: text.drop w
  · obtain ⟨behind, hbehind⟩ := hpoint
    have hone : (Scanner.exactly ['.']).run (text.drop w) = .ok 1 := by
      rw [Scanner.run, if_pos (List.isPrefixOf_iff_prefix.mpr ⟨behind, hbehind⟩)]
      rfl
    have hdrop : text.drop (w + 1) = behind := by rw [← List.drop_drop, ← hbehind]; rfl
    have hle : w + 1 ≤ text.length := by
      have hlen := congrArg List.length hbehind
      simp only [List.singleton_append, List.length_cons, List.length_drop] at hlen
      omega
    obtain ⟨p, hp, hple⟩ := Scanner.run_le integer (by decide) behind
    rw [hone, ok_bind, if_neg (by omega), Scanner.behind_ok hle, ok_bind, hdrop, hp, ok_bind] at hrun
    by_cases hp0 : p = 0
    · rw [if_pos hp0] at hrun
      cases hrun
      cases hn
    rw [if_neg hp0] at hrun
    cases hrun
    refine ⟨text.take w, behind.take p, ?_, isInteger_of_run hw (by omega), isInteger_of_run hp (by omega)⟩
    rw [List.take_add, List.take_add, hdrop, ← hbehind, List.append_assoc]
    rfl
  · have hzero : (Scanner.exactly ['.']).run (text.drop w) = .ok 0 := by
      rw [Scanner.run, if_neg (by rwa [List.isPrefixOf_iff_prefix])]
    rw [hzero] at hrun
    cases hrun
    cases hn

end Token

namespace Munches

variable {text whole places rest : List Char}

/-- Only the rules of numbers match at a digit. -/
private theorem rule_of_digit {r : Rule TokenKind} {c : Char} (hr : r ∈ Token.rules)
    (hstarts : r.scanner.startsWith c = true)
    (hc : Token.digit.startsWith c = true) : r = ⟨.float, Token.float⟩ ∨ r = ⟨.integer, Token.integer⟩ := by
  have hlt : c.toNat < 128 := by
    simp only [Token.digit, Scanner.startsWith, Bool.and_eq_true, decide_eq_true_eq, Char.le_def,
      UInt32.le_iff_toNat_le] at hc
    exact Nat.lt_of_le_of_lt hc.2 (by decide)
  obtain ⟨i, hi, hget⟩ :=
    rule_of_character (fun d => Token.digit.startsWith d) [2, 3] (by decide +kernel) hr hstarts hc hlt
  simp only [List.mem_cons, List.not_mem_nil, or_false] at hi
  rcases hi with rfl | rfl
  · exact .inl (Option.some.inj hget).symm
  · exact .inr (Option.some.inj hget).symm

private theorem digit_of_isInteger {c : Char} (htext : Token.isInteger (c :: text) = true) :
    Token.digit.startsWith c = true :=
  (Bool.and_eq_true_iff.mp htext).1

/-- An integer ends where nothing follows that could belong to a number. -/
private theorem integer (htext : Token.isInteger text = true) (hrest : Token.EndsNumber rest) :
    Munches .integer text rest := by
  cases text with
  | nil => cases htext
  | cons c cs =>
    refine of_rule (r := ⟨.integer, Token.integer⟩) (by simp [Token.rules]) (Token.run_integer htext hrest.character)
      fun r hr hstarts => ?_
    rcases rule_of_digit hr hstarts (digit_of_isInteger htext) with rfl | rfl
    · exact .inr ⟨0, Token.run_float_integer htext hrest, Nat.succ_pos _⟩
    · exact .inl rfl

/-- A floating point number ends where no digit follows. -/
private theorem float (hwhole : Token.isInteger whole = true) (hplaces : Token.isInteger places = true)
    (hrest : Token.numberCharacter.EndsBefore rest) : Munches .float (whole ++ '.' :: places) rest := by
  cases whole with
  | nil => cases hwhole
  | cons c cs =>
    have hends : Token.numberCharacter.EndsBefore ('.' :: (places ++ rest)) := fun d hd => by cases hd; decide
    have hinteger := Token.run_integer hwhole hends
    have hrun := Token.run_float hwhole hplaces hrest
    rw [List.cons_append] at hrun ⊢
    refine of_rule (r := ⟨.float, Token.float⟩) (by simp [Token.rules]) hrun fun r hr hstarts => ?_
    rcases rule_of_digit hr hstarts (digit_of_isInteger hwhole) with rfl | rfl
    · exact .inl rfl
    · refine .inr ⟨_, by simpa only [List.cons_append, List.append_assoc] using hinteger, ?_⟩
      simp only [List.length_cons, List.length_append]
      omega

end Munches

/-! ### Tokens by themselves -/

/-- A text goes on with a blank, if it goes on. -/
def StartsBlank (rest : List Char) : Prop := ∀ c, rest.head? = some c → Token.blankCharacter.startsWith c = true

namespace StartsBlank

variable {rest : List Char}

private theorem endsBefore {s : Scanner} (h : StartsBlank rest)
    (hs : [' ', '\t', '\r', '\n'].all (fun c => !s.startsWith c) = true) : s.EndsBefore rest := by
  intro c hc
  have hnot : (!s.startsWith c) = true := by
    rcases Munches.blank_cases (h c hc) with rfl | rfl | rfl | rfl <;> exact List.all_eq_true.mp hs _ (by simp)
  exact Bool.not_eq_true' _ ▸ hnot

private theorem endsNumber (h : StartsBlank rest) : Token.EndsNumber rest where
  character := h.endsBefore (by decide)
  point hpoint := by
    have hblank := h '.' hpoint
    revert hblank
    decide

end StartsBlank

namespace Lexeme.Matched

variable {l : Lexeme TokenKind}

/-- A lexeme is recognised by its own text in front of a blank, wherever it was found. -/
theorem munches (h : l.Matched) (hlayout : Token.isLayout l.kind = false) (hend : l.kind ≠ .endOfInput)
    {rest : List Char} (hrest : StartsBlank rest) : Munches l.kind l.text rest := by
  obtain ⟨r, hr, hkind, text, n, hrun, hpos, htext⟩ := h
  rw [← hkind] at hlayout hend
  rw [← hkind, htext]
  simp only [Token.rules, List.mem_append, List.mem_cons, List.not_mem_nil, or_false, List.mem_map] at hr
  rcases hr with ((rfl | rfl | rfl | rfl | rfl) | ⟨m, hm, rfl⟩) | rfl
  · cases hlayout
  · cases hlayout
  · obtain ⟨whole, places, heq, hwhole, hplaces⟩ := Token.parts_of_run_float hrun hpos
    rw [heq]
    exact .float hwhole hplaces hrest.endsNumber.character
  · exact .integer (Token.isInteger_of_run hrun hpos) hrest.endsNumber
  · exact .word (Token.isWord_of_run hrun hpos) (hrest.endsBefore (by decide))
  · rw [Scanner.run] at hrun
    split at hrun
    · rename_i hbegins
      cases hrun
      rw [← List.prefix_iff_eq_take.mp (List.isPrefixOf_iff_prefix.mp hbegins)]
      exact .mark hm hrest
    · cases hrun
      cases hpos
  · exact absurd rfl hend

/-- Only blanks start with one. -/
private theorem head_not_blank (h : l.Matched) (hlayout : Token.isLayout l.kind = false) {c : Char}
    (hc : l.text.head? = some c) :
    Token.blankCharacter.startsWith c = false := by
  obtain ⟨r, hr, hkind, text, n, hrun, hpos, htext⟩ := h
  rw [Bool.eq_false_iff]
  intro hblank
  cases text with
  | nil =>
    rw [htext, List.take_nil] at hc
    cases hc
  | cons d text =>
    obtain ⟨n, rfl⟩ := Nat.exists_eq_succ_of_ne_zero (Nat.ne_of_gt hpos)
    rw [htext, List.take_succ_cons, List.head?_cons] at hc
    cases hc
    have hstarts : r.scanner.startsWith c = true := by
      by_contra hnot
      rw [Scanner.run_eq_zero _ (Bool.eq_false_iff.mpr hnot)] at hrun
      cases hrun
    obtain rfl := Munches.rule_of_blank hr hstarts hblank
    rw [← hkind] at hlayout
    cases hlayout

end Lexeme.Matched

/-! ### Layout -/

/-- Blanks, and comments that end with their line. -/
inductive Layout : List Char → Prop where
  | nil : Layout []
  | blank {c : Char} {rest : List Char} (hc : Token.blankCharacter.startsWith c = true) (h : Layout rest) :
      Layout (c :: rest)
  | comment {body rest : List Char} (hbody : '\n' ∉ body) (h : Layout rest) :
      Layout ('/' :: '/' :: (body ++ '\n' :: rest))

private theorem Scanner.run_upTo {c : Char} {text rest : List Char} (h : c ∉ text)
    (hrest : ∀ d, rest.head? = some d → d = c) :
    (upTo c).run (text ++ rest) = .ok text.length := by
  have hstep (d : Char) (behind : List Char) :
      run (.not (.exactly [c])) (d :: behind) = .ok (if c = d then 0 else 1) := by
    rw [run, run]
    by_cases hd : c = d <;> simp [List.isPrefixOf, hd]
  rw [upTo, run]
  induction text with
  | nil =>
    cases rest with
    | nil => rfl
    | cons d rest =>
      rw [List.nil_append, repeated, hstep, if_pos (hrest d rfl).symm]
      rfl
  | cons d text ih =>
    rw [List.mem_cons, not_or] at h
    rw [List.cons_append, repeated, hstep, if_neg h.1]
    simp only [ok_bind, Nat.one_ne_zero, if_false, Nat.sub_self, ih h.2, List.length_cons, Nat.add_comm]
    rfl

/-- A comment goes to the end of its line. -/
theorem Token.run_comment {body rest : List Char} (hbody : '\n' ∉ body) (hrest : ∀ d, rest.head? = some d → d = '\n') :
    comment.run ('/' :: '/' :: body ++ rest) = .ok ('/' :: '/' :: body).length := by
  have hslashes : Scanner.runAll [.exactly ['/', '/']] 0 ('/' :: '/' :: (body ++ rest)) = .ok 2 := rfl
  rw [List.cons_append, List.cons_append, comment, Scanner.run, hslashes, ok_bind, if_neg (by decide),
    Scanner.behind_ok (by simp), ok_bind]
  simp only [List.drop_succ_cons, List.drop_zero, Scanner.run_upTo hbody hrest, ok_bind, List.length_cons, pure_eq_ok,
    Except.ok.injEq]
  omega

private theorem Munches.comment {body : List Char} (hbody : '\n' ∉ body) (rest : List Char) :
    Munches .comment ('/' :: '/' :: body) ('\n' :: rest) := by
  have hline : ∀ d, ('\n' :: rest).head? = some d → d = '\n' := fun d hd => (Option.some.inj hd).symm
  have hrun : Token.comment.run ('/' :: '/' :: body ++ '\n' :: rest) = .ok ('/' :: '/' :: body).length :=
    Token.run_comment hbody hline
  refine of_rule (r := ⟨.comment, Token.comment⟩) (by simp [Token.rules]) hrun fun r hr hstarts => ?_
  obtain ⟨i, hi, hget⟩ :=
    rule_of_character (fun d => d = '/') [1, 25] (by decide +kernel) hr hstarts rfl (by decide)
  simp only [List.mem_cons, List.not_mem_nil, or_false] at hi
  rcases hi with rfl | rfl
  · exact .inl (Option.some.inj hget).symm
  · obtain rfl : r = ⟨.slash, .exactly ['/']⟩ := (Option.some.inj hget).symm
    exact .inr ⟨1, rfl, by simp⟩

/-- Layout, and blanks in front of it, are left out. -/
theorem Layout.spells {layout text : List Char} {xs : List Symbol} (h : Layout layout)
    (htext : Token.blankCharacter.EndsBefore text) (hspells : Spells text xs) (blanks : List Char)
    (hblanks : ∀ c ∈ blanks, Token.blankCharacter.startsWith c = true) : Spells (blanks ++ (layout ++ text)) xs := by
  have front {rest : List Char} {blanks : List Char} (hblanks : ∀ c ∈ blanks, Token.blankCharacter.startsWith c = true)
      (hrest : Token.blankCharacter.EndsBefore rest) (h : Spells rest xs) : Spells (blanks ++ rest) xs := by
    cases blanks with
    | nil => exact h
    | cons c blanks => exact .layout rfl (.blanks (List.cons_ne_nil _ _) hblanks hrest) h
  induction h generalizing blanks with
  | nil => exact front hblanks htext hspells
  | @blank c rest hc _ ih =>
    have hall : ∀ d ∈ blanks ++ [c], Token.blankCharacter.startsWith d = true := by
      intro d hd
      rcases List.mem_append.mp hd with hd | hd
      · exact hblanks d hd
      · exact List.mem_singleton.mp hd ▸ hc
    simpa using ih (blanks ++ [c]) hall
  | @comment body rest hbody _ ih =>
    refine front hblanks (fun c hc => by cases hc; decide) ?_
    -- the newline behind a comment is a blank
    have hbehind := ih ['\n'] fun c hc => List.mem_singleton.mp hc ▸ rfl
    have hcomment := Spells.layout rfl (Munches.comment hbody (rest ++ text)) hbehind
    simpa using hcomment

/-! ### Files -/

/-- A separator is layout that starts with a blank. -/
def IsSeparator (text : List Char) : Prop :=
  Layout text ∧ ∃ c rest, text = c :: rest ∧ Token.blankCharacter.startsWith c = true

/-- Texts one behind the other, with any separators between them. -/
inductive Separated : List (List Char) → List Char → Prop where
  | nil : Separated [] []
  | last (text : List Char) : Separated [text] text
  | cons (text : List Char) {next : List Char} {rest : List (List Char)} {separator contents : List Char}
      (hseparator : IsSeparator separator) (h : Separated (next :: rest) contents) :
      Separated (text :: next :: rest) (text ++ (separator ++ contents))

variable {lexemes : List (Lexeme TokenKind)} {contents : List Char}

/-- The texts of lexemes that are written apart do not start with a blank. -/
private theorem Separated.endsBefore {l : Lexeme TokenKind} {rest : List (List Char)}
    (h : Separated (l.text :: rest) contents)
    (hl : l.Matched) (hlayout : Token.isLayout l.kind = false) (hend : l.kind ≠ .endOfInput) :
    Token.blankCharacter.EndsBefore contents := by
  have hne : l.text ≠ [] := (hl.munches hlayout hend (show StartsBlank [] from nofun)).nonempty
  obtain ⟨c, cs, hcs⟩ := List.exists_cons_of_ne_nil hne
  have hhead : contents.head? = some c := by
    cases h with
    | last => rw [hcs, List.head?_cons]
    | cons _ _ _ => rw [hcs, List.cons_append, List.head?_cons]
  intro d hd
  rw [hhead] at hd
  cases hd
  exact hl.head_not_blank hlayout (by rw [hcs, List.head?_cons])

/-- Lexemes that are written apart are found again. -/
theorem Separated.spells (hlexemes : ∀ l ∈ lexemes, l.Matched ∧ Token.isLayout l.kind = false ∧ l.kind ≠ .endOfInput)
    (h : Separated (lexemes.map (·.text)) contents) :
    Spells contents (lexemes.map fun l => .word (Token.ofLexeme l).toWord) := by
  induction lexemes generalizing contents with
  | nil =>
    cases h
    exact .nil
  | cons l rest ih =>
    obtain ⟨hl, hlayout, hend⟩ := hlexemes l List.mem_cons_self
    have hrest := fun l hl => hlexemes l (List.mem_cons_of_mem _ hl)
    have symbol {behind : List Char} (hbehind : StartsBlank behind)
        (h : Spells behind (rest.map fun l => .word (Token.ofLexeme l).toWord)) :
        Spells (l.text ++ behind) ((l :: rest).map fun l => .word (Token.ofLexeme l).toWord) :=
      .symbol hlayout (hl.munches hlayout hend hbehind) (.word (t := Token.ofLexeme ⟨l.kind, 0, l.text⟩)) h
    cases rest with
    | nil =>
      cases h
      simpa using symbol (show StartsBlank [] from nofun) .nil
    | cons next rest =>
      cases h with
      | @cons _ _ _ separator contents hseparator h =>
        obtain ⟨hlayout', c, behind, hc, hblank⟩ := hseparator
        obtain ⟨hnext, hnextLayout, hnextEnd⟩ := hrest next List.mem_cons_self
        have hspells := hlayout'.spells (h.endsBefore hnext hnextLayout hnextEnd) (ih hrest h) [] (by simp)
        refine symbol (fun d hd => ?_) hspells
        rw [hc] at hd
        cases hd
        exact hblank

private theorem Token.kind_ofLexeme_eq_end {l : Lexeme TokenKind} :
    (ofLexeme l).kind = .endOfInput ↔ l.kind = .endOfInput := by
  refine ⟨fun h => by_contra fun hne => ofLexeme_kind_ne_end hne h, fun h => ?_⟩
  simp [ofLexeme, h]

/-- The end of the input has no text. -/
private theorem Lexeme.Matched.text_eq_nil {l : Lexeme TokenKind} (h : l.Matched) (hend : l.kind = .endOfInput) :
    l.text = [] := by
  obtain ⟨r, hr, hkind, text, n, hrun, hpos, htext⟩ := h
  rcases Token.mem_rules.mp hr with hr | rfl
  · exact absurd (hkind.trans hend) (Token.innerRules_inside hr).2
  · cases text with
    | nil => rw [htext, List.take_nil]
    | cons c text =>
      cases hrun
      cases hpos

/-- What is said by words are the words. -/
private theorem map_toWord_of_says {words : List Word} {ts : List Token}
    (h : List.Forall₂ Symbol.Says (words.map .word) ts) :
    ts.map Token.toWord = words := by
  induction words generalizing ts with
  | nil =>
    cases h
    rfl
  | cons w words ih =>
    cases h with
    | cons hword hrest =>
      cases hword
      rw [List.map_cons, ih hrest]

/--
The tokens of a file, written again one behind the other with any separators between them, are read as the same tokens.
-/
theorem SourceFile.tokens_of_separated {file : SourceFile} {tokens : List Token} (h : file.tokens = .ok tokens)
    (hcontents : Separated ((tokens.filter fun t => t.kind ≠ .endOfInput).map (·.text.toList)) contents)
    (name : String) :
    ∃ tokens', (⟨name, contents⟩ : SourceFile).tokens = .ok tokens' ∧
      tokens'.map Token.toWord = tokens.map Token.toWord := by
  obtain ⟨lexemes, heq, hlexemes⟩ := tokens_matched h
  have hfilter : tokens.filter (fun t => t.kind ≠ .endOfInput) =
      (lexemes.filter fun l => l.kind ≠ .endOfInput).map Token.ofLexeme := by
    rw [heq, List.filter_map]
    congr 1
    exact List.filter_congr fun l _ => by simp [Token.kind_ofLexeme_eq_end]
  have htexts : (tokens.filter fun t => t.kind ≠ .endOfInput).map (·.text.toList) =
      (lexemes.filter fun l => l.kind ≠ .endOfInput).map (·.text) := by
    rw [hfilter, List.map_map]
    exact List.map_congr_left fun l _ => String.toList_ofList
  rw [htexts] at hcontents
  have hspells := hcontents.spells fun l hl => by
    obtain ⟨hl, hend⟩ := List.mem_filter.mp hl
    exact ⟨(hlexemes l hl).1, (hlexemes l hl).2, by simpa using hend⟩
  obtain ⟨tokens', htokens', hsaid⟩ :=
    tokens_of_spells (show Spells (⟨name, contents⟩ : SourceFile).contents _ from hspells)
  refine ⟨tokens', htokens', ?_⟩
  -- the end of the input stands at the end of both lists
  have hwords : tokens'.map Token.toWord =
      (tokens.filter fun t => t.kind ≠ .endOfInput).map Token.toWord ++ [⟨.endOfInput, ""⟩] := by
    rw [hfilter, List.map_map]
    refine map_toWord_of_says ?_
    simpa [List.map_append, Function.comp_def] using hsaid
  rw [hwords]
  rcases tokens_cases file with ⟨ts, hts, hstream⟩ | ⟨d, hd⟩
  · rw [h] at hts
    cases hts
    obtain ⟨init, last, hsplit, hlast, hinit⟩ := hstream.ended
    obtain ⟨l, hl, hlastEq⟩ := List.mem_map.mp (show last ∈ lexemes.map Token.ofLexeme by rw [← heq, hsplit]; simp)
    have hkind : l.kind = .endOfInput := Token.kind_ofLexeme_eq_end.mp (hlastEq ▸ hlast)
    have hword : last.toWord = ⟨.endOfInput, ""⟩ := by
      rw [Token.toWord, hlast, ← hlastEq]
      change Word.mk .endOfInput (String.ofList l.text) = _
      rw [(hlexemes l hl).1.text_eq_nil hkind]
    rw [hsplit, List.filter_append, List.filter_eq_self.mpr fun t ht => by simpa using hinit t ht,
      List.filter_cons_of_neg (by simp [hlast]), List.filter_nil, List.append_nil, List.map_append,
      List.map_singleton, hword]
  · rw [h] at hd
    cases hd

/-- A division and a member access, written again with a comment between them. -/
theorem SourceFile.tokens_of_separated_quotient :
    ∃ tokens, (⟨"quotient", "a/1.5.b".toList⟩ : SourceFile).tokens = .ok tokens ∧
    Separated ((tokens.filter fun t => t.kind ≠ .endOfInput).map (·.text.toList)) "a /\n// 2.5\n 1.5 .\tb".toList ∧
      ∃ tokens', (⟨"again", "a /\n// 2.5\n 1.5 .\tb".toList⟩ : SourceFile).tokens = .ok tokens' ∧
        tokens'.map Token.toWord = tokens.map Token.toWord := by
  have hrun : ((⟨"quotient", "a/1.5.b".toList⟩ : SourceFile).tokens.toOption.map fun tokens =>
      (tokens.filter fun t => t.kind ≠ .endOfInput).map (·.text.toList)) =
        some ["a".toList, "/".toList, "1.5".toList, ".".toList, "b".toList] := by
    decide +kernel
  cases htokens : (⟨"quotient", "a/1.5.b".toList⟩ : SourceFile).tokens with
  | error why =>
    rw [htokens] at hrun
    cases hrun
  | ok tokens =>
    rw [htokens] at hrun
    have htexts : (tokens.filter fun t => t.kind ≠ .endOfInput).map (·.text.toList) =
        ["a".toList, "/".toList, "1.5".toList, ".".toList, "b".toList] := Option.some.inj hrun
    have hcontents : Separated ((tokens.filter fun t => t.kind ≠ .endOfInput).map (·.text.toList))
        "a /\n// 2.5\n 1.5 .\tb".toList := by
      rw [htexts]
      have blank (c : Char) (hc : Token.blankCharacter.startsWith c = true) : IsSeparator [c] :=
        ⟨.blank hc .nil, c, [], rfl, hc⟩
      have comment : IsSeparator "\n// 2.5\n ".toList :=
        ⟨.blank rfl (@Layout.comment " 2.5".toList [' '] (by decide) (.blank rfl .nil)), '\n', _, rfl, rfl⟩
      exact .cons "a".toList (blank ' ' rfl) (.cons "/".toList comment (.cons "1.5".toList (blank ' ' rfl)
        (.cons ".".toList (blank '\t' rfl) (.last "b".toList))))
    exact ⟨tokens, rfl, hcontents, SourceFile.tokens_of_separated htokens hcontents "again"⟩

end RainCheck

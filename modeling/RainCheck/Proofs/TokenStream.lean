import RainCheck.Proofs.Faults
import RainCheck.Token

/-!
# Token streams

The tokens of a file form a `TokenStream`: they stand one behind the other, only the end of the input is empty, and it
stands at the end and nowhere else.
* A scanner that does not ask for the end of the input never looks behind it (`Scanner.run_le`).
* The lexemes of a text that is read to its end tile it (`Tiles`), so the scanner of tokens raises no fault
  (`SourceFile.tokens_cases`).
-/

namespace RainCheck

/-! ### Scanners stay inside the text -/

namespace Scanner

variable {α : Type}

mutual

/-- Whether a scanner never asks for the end of the input. -/
def staysInside : Scanner α → Bool
  | .firstOf alternatives => allStayInside alternatives
  | .exactly _ => true
  | .within _ _ => true
  | .not scanner => scanner.staysInside
  | .many scanner => scanner.staysInside
  | .endOfInput => false
  | .inOrder parts => allStayInside parts
  | .inOrderThen parts last => allStayInside parts && last.staysInside

/-- Whether no scanner of a list asks for the end of the input. -/
def allStayInside : List (Scanner α) → Bool
  | [] => true
  | s :: rest => s.staysInside && allStayInside rest

end

theorem behind_ok {n : Nat} {text : List α} (h : n ≤ text.length) : behind n text = .ok (text.drop n) := by
  induction n generalizing text with
  | zero => rfl
  | succ n ih =>
    cases text with
    | nil => simp at h
    | cons c rest =>
      rw [List.length_cons] at h
      exact ih (by omega)

private theorem repeated_le {scan : List α → Except Fault Nat}
    (hscan : ∀ text, ∃ n, scan text = .ok n ∧ n ≤ text.length) (matched : Nat) (text : List α)
    (h : matched ≤ text.length) : ∃ n, repeated scan matched text = .ok n ∧ matched + n ≤ text.length := by
  induction text generalizing matched with
  | nil =>
    have : matched = 0 := by simpa using h
    exact ⟨0, by simp [repeated], by omega⟩
  | cons c rest ih =>
    rw [List.length_cons] at h
    cases matched with
    | succ matched =>
      obtain ⟨n, hn, hle⟩ := ih matched (by omega)
      exact ⟨n, by rw [repeated, hn], by rw [List.length_cons]; omega⟩
    | zero =>
      obtain ⟨n, hn, hle⟩ := hscan (c :: rest)
      rw [List.length_cons] at hle
      by_cases h0 : n = 0
      · exact ⟨0, by simp [repeated, hn, h0], by omega⟩
      · obtain ⟨m, hm, hmle⟩ := ih (n - 1) (by omega)
        refine ⟨n + m, ?_, by rw [List.length_cons]; omega⟩
        simp [repeated, hn, h0, hm]

variable [DecidableEq α] [LE α] [DecidableLE α]

mutual

/-- A scanner that does not ask for the end of the input matches a part of the text. -/
theorem run_le : (s : Scanner α) → s.staysInside = true → (text : List α) →
    ∃ n, s.run text = .ok n ∧ n ≤ text.length
  | .firstOf alternatives, h, text => by
    rw [run]
    exact runFirst_le alternatives h text
  | .exactly characters, _, text => by
    rw [run]
    refine ⟨_, rfl, ?_⟩
    split
    · rename_i h
      exact (List.isPrefixOf_iff_prefix.mp h).length_le
    · omega
  | .within lowest highest, _, [] => ⟨0, rfl, by simp⟩
  | .within lowest highest, _, c :: rest => by
    refine ⟨if lowest ≤ c && c ≤ highest then 1 else 0, rfl, ?_⟩
    split <;> simp
  | .not scanner, _, [] => ⟨0, rfl, by simp⟩
  | .not scanner, h, c :: rest => by
    obtain ⟨n, hn, _⟩ := run_le scanner h (c :: rest)
    refine ⟨if n = 0 then 1 else 0, by simp [run, hn], ?_⟩
    split <;> simp
  | .many scanner, h, text => by
    rw [run]
    obtain ⟨n, hn, hle⟩ := repeated_le (run_le scanner h) 0 text (by omega)
    exact ⟨n, hn, by omega⟩
  | .inOrder parts, h, text => by
    rw [run]
    exact runAll_le parts h 0 text (by omega)
  | .inOrderThen parts last, h, text => by
    rw [staysInside, Bool.and_eq_true] at h
    rw [run]
    obtain ⟨n, hn, hle⟩ := runAll_le parts h.1 0 text (by omega)
    by_cases h0 : n = 0
    · exact ⟨0, by simp [hn, h0], by omega⟩
    · obtain ⟨m, hm, hmle⟩ := run_le last h.2 (text.drop n)
      rw [List.length_drop] at hmle
      exact ⟨n + m, by simp [hn, h0, behind_ok hle, hm], by omega⟩

private theorem runFirst_le : (ss : List (Scanner α)) → allStayInside ss = true → (text : List α) →
    ∃ n, runFirst ss text = .ok n ∧ n ≤ text.length
  | [], _, text => ⟨0, rfl, by omega⟩
  | s :: rest, h, text => by
    rw [allStayInside, Bool.and_eq_true] at h
    obtain ⟨n, hn, hle⟩ := run_le s h.1 text
    rw [runFirst]
    by_cases h0 : n = 0
    · simpa [hn, h0] using runFirst_le rest h.2 text
    · exact ⟨n, by simp [hn, h0], hle⟩

private theorem runAll_le : (ss : List (Scanner α)) → allStayInside ss = true → (matched : Nat) → (text : List α) →
    matched ≤ text.length → ∃ n, runAll ss matched text = .ok n ∧ n ≤ text.length
  | [], _, matched, text, hle => ⟨matched, rfl, hle⟩
  | s :: rest, h, matched, text, hle => by
    rw [allStayInside, Bool.and_eq_true] at h
    obtain ⟨n, hn, hnle⟩ := run_le s h.1 (text.drop matched)
    rw [List.length_drop] at hnle
    rw [runAll]
    by_cases h0 : n = 0
    · exact ⟨0, by simp [behind_ok hle, hn, h0], by omega⟩
    · simpa [behind_ok hle, hn, h0] using runAll_le rest h.2 (matched + n) text (by omega)

end

end Scanner

/-! ### Lexemes tile the text -/

/-- Lexemes that stand one behind the other from a position on, with the end of the input as the last one. -/
inductive Tiles : Nat → List (Lexeme TokenKind) → Prop where
  | last (start : Nat) : Tiles start [⟨.endOfInput, start, []⟩]
  | cons {kind : TokenKind} {start : Nat} {text : List Char} {rest : List (Lexeme TokenKind)}
      (hkind : kind ≠ .endOfInput) (htext : text ≠ []) (hrest : Tiles (start + text.length) rest) :
      Tiles start (⟨kind, start, text⟩ :: rest)

namespace Lexer

/--
The rule that wins at the start of a text: it matches `length` characters, more than the rules
before it and no less than those behind it.
-/
def Wins {κ α : Type} [DecidableEq α] [LE α] [DecidableLE α] (rules : List (Rule κ α)) (text : List α) (length : Nat)
    (kind : κ) : Prop :=
  ∃ before scanner behind, rules = before ++ ⟨kind, scanner⟩ :: behind ∧ scanner.run text = .ok length ∧ 0 < length ∧
    (∀ r ∈ before, ∃ n, r.scanner.run text = .ok n ∧ n < length) ∧ ∀ r ∈ behind, ∃ n,
    r.scanner.run text = .ok n ∧ n ≤ length

section

variable {κ α : Type} [DecidableEq α] [LE α] [DecidableLE α] {rules : List (Rule κ α)} {text : List α}

private theorem Wins.cons {r : Rule κ α} {n length : Nat} {kind : κ}
    (hn : r.scanner.run text = .ok n) (hlt : n < length)
    (h : Wins rules text length kind) : Wins (r :: rules) text length kind := by
  obtain ⟨before, scanner, behind, rfl, hrun, hpos, hbefore, hbehind⟩ := h
  refine ⟨r :: before, scanner, behind, rfl, hrun, hpos, ?_, hbehind⟩
  intro r' hr'
  rcases List.mem_cons.mp hr' with rfl | hr'
  · exact ⟨n, hn, hlt⟩
  · exact hbefore r' hr'

/-- No rule matches more than the one that wins. -/
theorem Wins.le {length : Nat} {kind : κ} (h : Wins rules text length kind) {r : Rule κ α} (hr : r ∈ rules) :
    ∃ n, r.scanner.run text = .ok n ∧ n ≤ length := by
  obtain ⟨before, scanner, behind, rfl, hrun, _, hbefore, hbehind⟩ := h
  rcases List.mem_append.mp hr with hr | hr
  · obtain ⟨n, hn, hlt⟩ := hbefore r hr
    exact ⟨n, hn, Nat.le_of_lt hlt⟩
  · rcases List.mem_cons.mp hr with rfl | hr
    · exact ⟨length, hrun, Nat.le_refl _⟩
    · exact hbehind r hr

theorem Wins.pos {length : Nat} {kind : κ} (h : Wins rules text length kind) : 0 < length := by
  obtain ⟨_, _, _, _, _, hpos, _⟩ := h
  exact hpos

/-- If a rule matches more than a bound, there is one that wins. -/
theorem exists_wins (hrules : ∀ r ∈ rules, ∃ n, r.scanner.run text = .ok n) (bound : Nat) :
    (∀ r ∈ rules, ∃ n, r.scanner.run text = .ok n ∧ n ≤ bound) ∨
      ∃ length kind, bound < length ∧ Wins rules text length kind := by
  induction rules with
  | nil => exact .inl (by simp)
  | cons r rules ih =>
    obtain ⟨n, hn⟩ := hrules r (by simp)
    have first (hlt : bound < n) (hmax : ∀ r' ∈ rules, ∃ m, r'.scanner.run text = .ok m ∧ m ≤ n) :
        ∃ length kind, bound < length ∧ Wins (r :: rules) text length kind :=
      ⟨n, r.kind, hlt, [], r.scanner, rules, rfl, hn, by omega, by simp, hmax⟩
    rcases ih fun r' hr' => hrules r' (by simp [hr']) with hmax | ⟨length, kind, hmore, hwins⟩
    · by_cases hlt : bound < n
      · exact .inr (first hlt fun r' hr' => (hmax r' hr').imp fun _ h => ⟨h.1, by omega⟩)
      · refine .inl fun r' hr' => ?_
        rcases List.mem_cons.mp hr' with rfl | hr'
        · exact ⟨n, hn, by omega⟩
        · exact hmax r' hr'
    · by_cases hlt : n < length
      · exact .inr ⟨length, kind, hmore, hwins.cons hn hlt⟩
      · exact .inr (first (by omega) fun r' hr' => (hwins.le hr').imp fun _ h => ⟨h.1, by omega⟩)

theorem longest_of_le (best : Nat × Option κ)
    (hmax : ∀ r ∈ rules, ∃ n, r.scanner.run text = .ok n ∧ n ≤ best.1) : longest rules best text = .ok best := by
  induction rules with
  | nil => rfl
  | cons r rules ih =>
    obtain ⟨n, hn, hle⟩ := hmax r (by simp)
    simpa [longest, hn, Nat.not_lt.mpr hle] using ih fun r' hr' => hmax r' (by simp [hr'])

theorem Wins.longest {length : Nat} {kind : κ} (h : Wins rules text length kind) (best : Nat × Option κ)
    (hbest : best.1 < length) : longest rules best text = .ok (length, some kind) := by
  obtain ⟨before, scanner, behind, rfl, hrun, _, hbefore, hbehind⟩ := h
  induction before generalizing best with
  | nil => simpa [Lexer.longest, hrun, hbest] using longest_of_le (length, some kind) hbehind
  | cons r before ih =>
    obtain ⟨n, hn, hlt⟩ := hbefore r (by simp)
    have hstep : (if best.1 < n then (n, some r.kind) else best).1 < length := by
      split
      · exact hlt
      · exact hbest
    simpa [Lexer.longest, hn] using ih _ hstep fun r' hr' => hbefore r' (by simp [hr'])

/-- The longest match is that of one of the rules, and it is at least as long as that of each. -/
theorem longest_cases (hrules : ∀ r ∈ rules, ∃ n, r.scanner.run text = .ok n) (best : Nat × Option κ) :
    ∃ found, longest rules best text = .ok found ∧ best.1 ≤ found.1 ∧
      (∀ r ∈ rules, ∀ n, r.scanner.run text = .ok n → n ≤ found.1) ∧
      (found = best ∨ ∃ r ∈ rules, r.scanner.run text = .ok found.1 ∧ 0 < found.1 ∧ found.2 = some r.kind) := by
  have hle {length : Nat} {r : Rule κ α} (h : ∃ n, r.scanner.run text = .ok n ∧ n ≤ length) (n : Nat)
      (hn : r.scanner.run text = .ok n) : n ≤ length := by
    obtain ⟨m, hm, hle⟩ := h
    rw [hn] at hm
    cases hm
    exact hle
  rcases exists_wins hrules best.1 with hmax | ⟨length, kind, hmore, hwins⟩
  · exact ⟨best, longest_of_le best hmax, Nat.le_refl _, fun r hr => hle (hmax r hr), .inl rfl⟩
  · refine ⟨_, hwins.longest best hmore, Nat.le_of_lt hmore, fun r hr => hle (hwins.le hr), .inr ?_⟩
    obtain ⟨before, scanner, behind, rfl, hrun, hpos, _⟩ := hwins
    exact ⟨⟨kind, scanner⟩, by simp, hrun, hpos, rfl⟩

theorem collectAtMost_found {l : Lexer κ α} {bound : Nat} {lexeme : Lexeme κ α} (hnone : l.lookahead = none)
    (hfind : l.find = .ok (some lexeme)) :
    l.collectAtMost (bound + 1) =
      ((l.skip lexeme).collectAtMost bound >>= fun found => .ok (lexeme :: found.1, found.2)) := by
  have hskip : ({ l with lookahead := some lexeme } : Lexer κ α).skip lexeme = l.skip lexeme := rfl
  simp [collectAtMost, hasNext, hnone, hfind, next, hskip]

theorem collectAtMost_none {l : Lexer κ α} {bound : Nat} (hnone : l.lookahead = none) (hfind : l.find = .ok none) :
    l.collectAtMost (bound + 1) = .ok ([], { l with lookahead := none }) := by
  simp [collectAtMost, hasNext, hnone, hfind]

end

end Lexer

namespace Token

/-- The rules of all tokens but the end of the input. -/
def innerRules : List (Rule TokenKind) :=
  [⟨.blank, blanks⟩, ⟨.comment, comment⟩, ⟨.float, float⟩, ⟨.integer, integer⟩, ⟨.identifier, word⟩] ++
    marks.map (fun (kind, text) => ⟨kind, .exactly text.toList⟩)

theorem mem_rules {r : Rule TokenKind} : r ∈ rules ↔ r ∈ innerRules ∨ r = ⟨.endOfInput, .endOfInput⟩ := by
  simp [rules, innerRules, or_assoc]

theorem innerRules_inside {r : Rule TokenKind} (h : r ∈ innerRules) :
    r.scanner.staysInside = true ∧ r.kind ≠ .endOfInput := by
  have hall : innerRules.all (fun r => r.scanner.staysInside && r.kind != .endOfInput) = true := by decide
  simpa using List.all_eq_true.mp hall r h

theorem rules_run {r : Rule TokenKind} (h : r ∈ rules) (text : List Char) : ∃ n, r.scanner.run text = .ok n := by
  rcases mem_rules.mp h with h | rfl
  · obtain ⟨n, hn, _⟩ := Scanner.run_le _ (innerRules_inside h).1 text
    exact ⟨n, hn⟩
  · exact ⟨_, rfl⟩

end Token

namespace Lexer

variable {l : Lexer TokenKind}

/-- At the end of the text the end of the input is found. -/
theorem find_end (hrules : l.rules = Token.rules) (hended : l.ended = false) (hrest : l.rest = []) :
    l.find = .ok (some ⟨.endOfInput, l.index, []⟩) := by
  have hrun : ∀ r ∈ l.rules, ∃ n, r.scanner.run l.rest = .ok n := by
    intro r hr
    rw [hrules] at hr
    exact Token.rules_run hr l.rest
  obtain ⟨found, hfound, _, hmax, hcases⟩ := longest_cases hrun (0, none)
  have hone : 1 ≤ found.1 :=
    hmax ⟨.endOfInput, .endOfInput⟩ (by rw [hrules]; exact Token.mem_rules.mpr (.inr rfl)) 1 (by rw [hrest]; rfl)
  rcases hcases with rfl | ⟨r, hr, hn, _, hkind⟩
  · simp at hone
  rw [hrules] at hr
  rcases Token.mem_rules.mp hr with hr | rfl
  · -- any other rule matches nothing of an empty text
    obtain ⟨n, hn', hle⟩ := Scanner.run_le _ (Token.innerRules_inside hr).1 l.rest
    rw [hn] at hn'
    cases hn'
    rw [hrest, List.length_nil] at hle
    omega
  · obtain ⟨n, kind⟩ := found
    simp only at hkind
    rw [hrest] at hfound
    simp [find, hended, hfound, hkind, hrest]

/-- Inside the text a lexeme that is not empty is found, or none. -/
private theorem find_inside (hrules : l.rules = Token.rules) (hended : l.ended = false) (hrest : l.rest ≠ []) :
    l.find = .ok none ∨ ∃ kind n, l.find = .ok (some ⟨kind, l.index, l.rest.take n⟩) ∧ kind ≠ .endOfInput ∧
      0 < n ∧ n ≤ l.rest.length := by
  have hrun : ∀ r ∈ l.rules, ∃ n, r.scanner.run l.rest = .ok n := by
    intro r hr
    rw [hrules] at hr
    exact Token.rules_run hr l.rest
  obtain ⟨⟨n, kind⟩, hfound, _, _, hcases⟩ := longest_cases hrun (0, none)
  rcases hcases with heq | ⟨r, hr, hn, hpos, hkind⟩
  · cases heq
    exact .inl (by simp [find, hended, hfound])
  simp only at hn hpos hkind
  subst hkind
  rw [hrules] at hr
  rcases Token.mem_rules.mp hr with hr | rfl
  · obtain ⟨m, hm, hle⟩ := Scanner.run_le _ (Token.innerRules_inside hr).1 l.rest
    rw [hn] at hm
    cases hm
    exact .inr ⟨r.kind, n, by simp [find, hended, hfound], (Token.innerRules_inside hr).2, hpos, hle⟩
  · -- the end of the input is not found in front of a character
    cases hcase : l.rest with
    | nil => exact absurd hcase hrest
    | cons c rest =>
      rw [hcase] at hn
      simp only [Scanner.run, List.isEmpty_cons, Bool.false_eq_true, if_false, Except.ok.injEq] at hn
      omega

/-- Collecting raises no fault; if nothing of the text is left, the lexemes tile it. -/
private theorem collectAtMost_tiles {bound : Nat} (hrules : l.rules = Token.rules) (hended : l.ended = false)
    (hnone : l.lookahead = none) (hbound : l.rest.length + 2 ≤ bound) :
    ∃ lexemes l', l.collectAtMost bound = .ok (lexemes, l') ∧ (l'.rest = [] → Tiles l.index lexemes) := by
  induction bound generalizing l with
  | zero => omega
  | succ bound ih =>
    by_cases hrest : l.rest = []
    · rw [collectAtMost_found hnone (find_end hrules hended hrest)]
      obtain ⟨bound, rfl⟩ : ∃ b, bound = b + 1 := ⟨bound - 1, by omega⟩
      rw [collectAtMost_none (by simp [skip, hrest]) (by simp [skip, hrest, find])]
      exact ⟨_, _, rfl, fun _ => .last l.index⟩
    · rcases find_inside hrules hended hrest with hfind | ⟨kind, n, hfind, hkind, hpos, hle⟩
      · rw [collectAtMost_none hnone hfind]
        exact ⟨_, _, rfl, fun h => absurd h hrest⟩
      · have hlen : (l.rest.take n).length = n := by rw [List.length_take]; omega
        have hskip : l.skip ⟨kind, l.index, l.rest.take n⟩ =
            { l with index := l.index + n, rest := l.rest.drop n, lookahead := none } := by
          simp [skip, hrest, hlen]
        rw [collectAtMost_found hnone hfind, hskip]
        obtain ⟨lexemes, l', hcollect, htiles⟩ :=
          ih (l := { l with index := l.index + n, rest := l.rest.drop n, lookahead := none }) hrules hended rfl
            (by simp only [List.length_drop]; omega)
        rw [hcollect]
        refine ⟨_, _, rfl, fun h => .cons hkind ?_ (by rw [hlen]; exact htiles h)⟩
        intro hnil
        rw [hnil, List.length_nil] at hlen
        omega

end Lexer

/-! ### Tokens -/

/-- Tokens that stand one behind the other; the end of the input stands at the end and nowhere else. -/
structure TokenStream (ts : List Token) : Prop where
  ordered : ts.Pairwise fun t u => t.span.stop ≤ u.span.start
  filled : ∀ t ∈ ts, t.kind ≠ .endOfInput → t.span.start < t.span.stop
  ended : ∃ init last, ts = init ++ [last] ∧ last.kind = .endOfInput ∧ ∀ t ∈ init, t.kind ≠ .endOfInput

namespace Token

theorem ofLexeme_kind_ne_end {l : Lexeme TokenKind} (h : l.kind ≠ .endOfInput) :
    (ofLexeme l).kind ≠ .endOfInput := by
  unfold ofLexeme
  dsimp only
  split
  · simp
  · exact h

/-- The tokens of lexemes that tile a text from `start` on. -/
private theorem stream_of_tiles {start : Nat} {lexemes : List (Lexeme TokenKind)} (h : Tiles start lexemes) :
    TokenStream ((lexemes.filter fun l => !isLayout l.kind).map ofLexeme) ∧
      ∀ t ∈ (lexemes.filter fun l => !isLayout l.kind).map ofLexeme, (start : Int) ≤ t.span.start := by
  induction h with
  | last start =>
    have heq : ([⟨.endOfInput, start, []⟩] : List (Lexeme TokenKind)).filter (fun l => !isLayout l.kind) =
        [⟨.endOfInput, start, []⟩] := rfl
    rw [heq]
    refine ⟨⟨by simp, by simp [ofLexeme], [], _, rfl, rfl, by simp⟩, ?_⟩
    simp [ofLexeme, Lexeme.span, Span.ofLength]
  | @cons kind start text rest hkind htext hrest ih =>
    have hlen : 0 < text.length := List.length_pos_iff.mpr htext
    have hlater : ∀ t ∈ (rest.filter fun l => !isLayout l.kind).map ofLexeme,
        ((start + text.length : Nat) : Int) ≤ t.span.start := ih.2
    -- layout is dropped, and the tokens behind it start later
    by_cases hlayout : isLayout kind = true
    · rw [List.filter_cons_of_neg (by simpa using hlayout)]
      refine ⟨ih.1, fun t ht => ?_⟩
      have := hlater t ht
      omega
    · rw [List.filter_cons_of_pos (by simpa using hlayout), List.map_cons]
      have hspan : (ofLexeme ⟨kind, start, text⟩).span = Span.ofLength start text.length := rfl
      refine ⟨⟨?_, ?_, ?_⟩, ?_⟩
      · rw [List.pairwise_cons]
        refine ⟨fun t ht => ?_, ih.1.ordered⟩
        have := hlater t ht
        rw [hspan]
        simpa [Span.ofLength] using this
      · intro t ht hend
        rcases List.mem_cons.mp ht with rfl | ht
        · rw [hspan]
          simp [Span.ofLength]
          omega
        · exact ih.1.filled t ht hend
      · obtain ⟨init, last, heq, hlast, hinit⟩ := ih.1.ended
        refine ⟨ofLexeme ⟨kind, start, text⟩ :: init, last, by rw [heq]; rfl, hlast, ?_⟩
        intro t ht
        rcases List.mem_cons.mp ht with rfl | ht
        · exact ofLexeme_kind_ne_end hkind
        · exact hinit t ht
      · intro t ht
        rcases List.mem_cons.mp ht with rfl | ht
        · rw [hspan]
          simp [Span.ofLength]
        · have := hlater t ht
          omega

end Token

/-- Splitting a file into tokens raises no fault: it gives a stream of tokens or refuses the file. -/
theorem SourceFile.tokens_cases (file : SourceFile) :
    (∃ ts, file.tokens = .ok ts ∧ TokenStream ts) ∨ ∃ d, file.tokens = .error (.refused d) := by
  obtain ⟨lexemes, l', hcollect, htiles⟩ :=
    Lexer.collectAtMost_tiles (l := { rules := Token.rules, rest := file.contents }) rfl rfl rfl
      (Nat.le_refl (file.contents.length + 2))
  by_cases hrest : l'.rest = []
  · refine .inl ⟨_, ?_, (Token.stream_of_tiles (htiles hrest)).1⟩
    simp [SourceFile.tokens, Lexer.collect, hcollect, Stop.lift, hrest]
  · refine .inr ⟨⟨.ofLength l'.index 1, .unknownText⟩, ?_⟩
    simp [SourceFile.tokens, Lexer.collect, hcollect, Stop.lift, hrest]

end RainCheck

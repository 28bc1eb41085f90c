import RainCheck.Proofs.ReadBack

/-!
# Spelling symbols

Which tokens a text is split into, if it is known from how it is built which symbols it spells
(`SourceFile.tokens_of_spells`).
* The first character of a text tells which rules compete (`Scanner.startsWith`).
* A lexeme is found if its rule matches just that far and no other rule matches as far (`Munches.of_rule`).
* Names end where no letter or digit follows; most marks end by themselves.
-/

namespace RainCheck

/-! ### Names -/

/-- A letter or a digit. -/
def Token.wordCharacter : Scanner := .firstOf [letter, digit]

/-- A blank, a tabulator or a line end. -/
def Token.blankCharacter : Scanner := .firstOf [.exactly [' '], .exactly ['\t'], .exactly ['\r'], .exactly ['\n']]

/-- Whether characters are a letter and then letters and digits. -/
def Token.isWord : List Char → Bool
  | [] => false
  | c :: cs => letter.startsWith c && cs.all fun d => wordCharacter.startsWith d

/-- A text that is spelled like a name and is no reserved word. -/
structure IsName (text : String) : Prop where
  word : Token.isWord text.toList = true
  unreserved : Keyword.ofText? text = none

theorem Token.isWord_eq (text : List Char) : isWord text = letter.leadBy wordCharacter text := by cases text <;> rfl

theorem Token.run_word {text rest : List Char} (htext : isWord text = true) (hrest : wordCharacter.EndsBefore rest) :
    word.run (text ++ rest) = .ok text.length :=
  Scanner.run_leadBy (by decide) (by decide) (isWord_eq text ▸ htext) hrest

theorem Token.isWord_of_run {text : List Char} {n : Nat} (hrun : word.run text = .ok n) (hn : 0 < n) :
    isWord (text.take n) = true :=
  (isWord_eq _).trans (Scanner.leadBy_of_run (by decide) (by decide) (by decide) hrun hn)

/-- The tokens that are names are spelled like names. -/
private theorem Lexeme.Matched.isName {l : Lexeme TokenKind} (h : l.Matched)
    (hkind : (Token.ofLexeme l).kind = .identifier) :
    IsName (Token.ofLexeme l).text := by
  obtain ⟨r, hr, hrkind, text, n, hrun, hpos, htext⟩ := h
  have hlexeme : l.kind = .identifier ∧ Keyword.ofText? (String.ofList l.text) = none := by
    unfold Token.ofLexeme at hkind
    dsimp only at hkind
    split at hkind
    · cases hkind
    · rename_i hnone
      refine ⟨hkind, ?_⟩
      cases hword : Keyword.ofText? (String.ofList l.text) with
      | none => rfl
      | some word => exact absurd hword (hnone word hkind)
  have hrule : r = ⟨.identifier, Token.word⟩ := by
    have hall : ∀ i < Token.rules.length, ∀ r, Token.rules[i]? = some r → r.kind = .identifier → i = 4 := by
      decide +kernel
    obtain ⟨i, hi, heq⟩ := List.getElem_of_mem hr
    obtain rfl := hall i hi r (List.getElem?_eq_some_iff.mpr ⟨hi, heq⟩) (hrkind.trans hlexeme.1)
    exact heq.symm
  subst hrule
  refine ⟨?_, hlexeme.2⟩
  change Token.isWord (String.ofList l.text).toList = true
  rw [String.toList_ofList, htext]
  exact Token.isWord_of_run hrun hpos

/-- The names of a file are spelled like names. -/
theorem SourceFile.tokens_named {file : SourceFile} {tokens : List Token} (h : file.tokens = .ok tokens) :
    ∀ t ∈ tokens, t.kind = .identifier → IsName t.text := by
  obtain ⟨lexemes, rfl, hlexemes⟩ := tokens_matched h
  intro t ht hkind
  obtain ⟨l, hl, rfl⟩ := List.mem_map.mp ht
  exact (hlexemes l hl).1.isName hkind

/-! ### Lexemes -/

/-- The lexeme that is found at the start of a text has this kind and is followed by the rest. -/
structure Munches (kind : TokenKind) (text rest : List Char) : Prop where
  nonempty : text ≠ []
  longest : Lexer.longest Token.rules (0, none) (text ++ rest) = .ok (text.length, some kind)

namespace Munches

variable {kind : TokenKind} {text rest : List Char}

/-- A rule matches further than all others that may match. -/
theorem of_rule {r : Rule TokenKind} {c : Char} (hr : r ∈ Token.rules)
    (hrun : r.scanner.run (c :: text ++ rest) = .ok (c :: text).length)
    (hothers : ∀ r' ∈ Token.rules, r'.scanner.startsWith c = true → r' = r ∨
      ∃ n, r'.scanner.run (c :: text ++ rest) = .ok n ∧ n < (c :: text).length) :
    Munches r.kind (c :: text) rest := by
  refine ⟨List.cons_ne_nil _ _, ?_⟩
  obtain ⟨⟨n, found⟩, hlongest, -, hmax, hcases⟩ :=
    Lexer.longest_cases (fun r hr => Token.rules_run hr (c :: text ++ rest)) (0, none)
  have hle : (c :: text).length ≤ n := hmax r hr _ hrun
  rcases hcases with heq | ⟨r', hr', hrun', -, hkind⟩
  · cases heq
    cases hle
  have hstarts : r'.scanner.startsWith c = true := by
    by_contra hnot
    rw [List.cons_append, Scanner.run_eq_zero _ (Bool.eq_false_iff.mpr hnot)] at hrun'
    cases hrun'
    cases hle
  rcases hothers r' hr' hstarts with rfl | ⟨m, hm, hlt⟩
  · rw [hrun] at hrun'
    cases hrun'
    rw [hlongest]
    simp only at hkind
    rw [hkind]
    rfl
  · rw [hm] at hrun'
    cases hrun'
    omega

/-- The rules that match at characters of a class, if the class is within the first 128 characters. -/
theorem rule_of_character (p : Char → Bool) (allowed : List Nat)
    (hall : ∀ n < 128, p (Char.ofNat n) = true → ∀ x ∈ Token.rules.zipIdx,
      x.1.scanner.startsWith (Char.ofNat n) = true → x.2 ∈ allowed)
    {r : Rule TokenKind} {c : Char} (hr : r ∈ Token.rules) (hstarts : r.scanner.startsWith c = true) (hc : p c = true)
    (hlt : c.toNat < 128) : ∃ i ∈ allowed, Token.rules[i]? = some r := by
  obtain ⟨i, hi, heq⟩ := List.getElem_of_mem hr
  have hget : Token.rules[i]? = some r := List.getElem?_eq_some_iff.mpr ⟨hi, heq⟩
  refine ⟨i, hall c.toNat hlt ?_ (r, i) (List.mem_zipIdx_iff_getElem?.mpr hget) ?_, hget⟩ <;> rwa [Char.ofNat_toNat]

/-- Only the rule of names matches at a letter. -/
private theorem rule_of_letter {r : Rule TokenKind} {c : Char} (hr : r ∈ Token.rules)
    (hstarts : r.scanner.startsWith c = true)
    (hc : Token.letter.startsWith c = true) : r = ⟨.identifier, Token.word⟩ := by
  have hlt : c.toNat < 128 := by
    simp only [Token.letter, Scanner.startsWith, Scanner.someStartsWith, Bool.or_eq_true, Bool.and_eq_true,
      decide_eq_true_eq, List.head?_cons, Option.some.injEq, Char.le_def, UInt32.le_iff_toNat_le, Bool.or_false] at hc
    rcases hc with ⟨-, hc⟩ | ⟨-, hc⟩ | rfl
    · exact Nat.lt_of_le_of_lt hc (by decide)
    · exact Nat.lt_of_le_of_lt hc (by decide)
    · decide
  obtain ⟨i, hi, hget⟩ :=
    rule_of_character (fun d => Token.letter.startsWith d) [4] (by decide +kernel) hr hstarts hc hlt
  obtain rfl := List.mem_singleton.mp hi
  exact (Option.some.inj hget).symm

/-- A blank is one of four characters. -/
theorem blank_cases {c : Char} (hc : Token.blankCharacter.startsWith c = true) :
    c = ' ' ∨ c = '\t' ∨ c = '\r' ∨ c = '\n' := by
  simp only [Token.blankCharacter, Scanner.startsWith, Scanner.someStartsWith, List.head?_cons, Option.some.injEq,
    Bool.or_eq_true, decide_eq_true_eq, Bool.or_false] at hc
  rcases hc with hc | hc | hc | hc <;> simp [← hc]

/-- Only the rule of blanks matches at a blank. -/
theorem rule_of_blank {r : Rule TokenKind} {c : Char} (hr : r ∈ Token.rules) (hstarts : r.scanner.startsWith c = true)
    (hc : Token.blankCharacter.startsWith c = true) : r = ⟨.blank, Token.blanks⟩ := by
  have hlt : c.toNat < 128 := by rcases blank_cases hc with rfl | rfl | rfl | rfl <;> decide
  obtain ⟨i, hi, hget⟩ :=
    rule_of_character (fun d => Token.blankCharacter.startsWith d) [0] (by decide +kernel) hr hstarts hc hlt
  obtain rfl := List.mem_singleton.mp hi
  exact (Option.some.inj hget).symm

/-- A word ends where no letter or digit follows. -/
theorem word (htext : Token.isWord text = true) (hrest : Token.wordCharacter.EndsBefore rest) :
    Munches .identifier text rest := by
  cases text with
  | nil => cases htext
  | cons c cs =>
    have hc : Token.letter.startsWith c = true := (Bool.and_eq_true_iff.mp htext).1
    exact of_rule (r := ⟨.identifier, Token.word⟩) (by simp [Token.rules]) (Token.run_word htext hrest)
      fun r hr hstarts => .inl (rule_of_letter hr hstarts hc)

/-- Reserved words are spelled like names. -/
private theorem keyword (word : Keyword) (hrest : Token.wordCharacter.EndsBefore rest) :
    Munches .identifier word.text.toList rest :=
  .word (by cases word <;> decide) hrest

/-- Blanks are found as far as they go. -/
theorem blanks (hne : text ≠ []) (htext : ∀ c ∈ text, Token.blankCharacter.startsWith c = true)
    (hrest : Token.blankCharacter.EndsBefore rest) : Munches .blank text rest := by
  cases text with
  | nil => exact absurd rfl hne
  | cons c cs =>
    exact of_rule (r := ⟨.blank, Token.blanks⟩) (by simp [Token.rules]) (Scanner.run_many (by decide) htext hrest)
      fun r hr hstarts => .inl (rule_of_blank hr hstarts (htext c List.mem_cons_self))

/-- No other mark matches as far as a mark with a blank or nothing behind it. -/
private theorem marks_compete {m m' : TokenKind × String} (hm : m ∈ Token.marks) (hm' : m' ∈ Token.marks)
    (hrest : ∀ c, rest.head? = some c → Token.blankCharacter.startsWith c = true)
    (hbegins : m'.2.toList <+: m.2.toList ++ rest) (hlen : m.2.toList.length ≤ m'.2.toList.length) : m' = m := by
  have hdistinct : ∀ m ∈ Token.marks, ∀ m' ∈ Token.marks, m'.2.toList = m.2.toList → m' = m := by decide
  have hblank :
      Token.marks.all (fun m => m.2.toList.all fun c => !Token.blankCharacter.startsWith c) = true := by decide
  obtain ⟨behind, hbehind⟩ := List.prefix_of_prefix_length_le (List.prefix_append _ rest) hbegins hlen
  cases behind with
  | nil => exact hdistinct m hm m' hm' (by rw [← hbehind, List.append_nil])
  | cons c behind =>
    -- a longer one would contain the blank
    rw [← hbehind] at hbegins
    obtain ⟨tail, htail⟩ := (List.prefix_append_right_inj _).mp hbegins
    have hnot := List.all_eq_true.mp (List.all_eq_true.mp hblank m' hm') c (by rw [← hbehind]; simp)
    rw [hrest c (by rw [← htail]; rfl)] at hnot
    cases hnot

/-- A mark ends in front of a blank and at the end of the text. -/
theorem mark {m : TokenKind × String} (hm : m ∈ Token.marks)
    (hrest : ∀ c, rest.head? = some c → Token.blankCharacter.startsWith c = true) : Munches m.1 m.2.toList rest := by
  have hne : ∀ m ∈ Token.marks, m.2.toList ≠ [] := by decide
  -- apart from the marks, only a comment may start like a mark
  have hstart : Token.marks.all (fun m => m.2.toList.head?.all fun c =>
      [Token.blanks, Token.float, Token.integer, Token.word, Scanner.endOfInput].all fun s =>
          !s.startsWith c) = true := by
    decide +kernel
  have hslash : ∀ m ∈ Token.marks, m.2.toList.head? = some '/' → m.2.toList = ['/'] := by decide
  obtain ⟨c, cs, hcs⟩ := List.exists_cons_of_ne_nil (hne m hm)
  have hhead : c ∈ m.2.toList.head? := by rw [hcs]; rfl
  have hothers {s : Scanner} (hs : s ∈ [Token.blanks, Token.float, Token.integer, Token.word, Scanner.endOfInput])
      (hstarts : s.startsWith c = true) : False := by
    have hnot := List.all_eq_true.mp hstart m hm
    rw [hcs] at hnot
    simpa [hstarts] using List.all_eq_true.mp hnot s hs
  have hrun : (Scanner.exactly m.2.toList).run (c :: cs ++ rest) = .ok (c :: cs).length := by
    rw [← hcs, Scanner.run, if_pos (List.isPrefixOf_iff_prefix.mpr (List.prefix_append _ _))]
  rw [hcs]
  refine of_rule (r := ⟨m.1, .exactly m.2.toList⟩) (Token.mem_rules.mpr (.inl ?_)) hrun fun r hr hstarts => ?_
  · exact List.mem_append_right _ (List.mem_map.mpr ⟨m, hm, rfl⟩)
  simp only [Token.rules, List.mem_append, List.mem_cons, List.not_mem_nil, or_false, List.mem_map] at hr
  rcases hr with ((rfl | rfl | rfl | rfl | rfl) | ⟨m', hm', rfl⟩) | rfl
  case inl.inl.inr.inl =>
    -- a slash with a blank behind it is no comment
    have hc : c = '/' := by simpa [Token.comment, Scanner.startsWith, Scanner.firstStartsWith, eq_comm] using hstarts
    have hcs' : c :: cs = ['/'] := by rw [← hcs, hslash m hm (hc ▸ hhead)]
    refine .inr ⟨0, ?_, Nat.succ_pos _⟩
    rw [hcs']
    cases rest with
    | nil => rfl
    | cons d rest => rcases blank_cases (hrest d rfl) with rfl | rfl | rfl | rfl <;> rfl
  case inl.inr =>
    rw [← hcs]
    by_cases hbegins : m'.2.toList <+: m.2.toList ++ rest
    · by_cases hlen : m.2.toList.length ≤ m'.2.toList.length
      · obtain rfl := marks_compete hm hm' hrest hbegins hlen
        exact .inl rfl
      · exact .inr ⟨_, by rw [Scanner.run, if_pos (List.isPrefixOf_iff_prefix.mpr hbegins)], Nat.lt_of_not_le hlen⟩
    · refine .inr ⟨0, ?_, by rw [hcs]; exact Nat.succ_pos _⟩
      rw [Scanner.run, if_neg (by rwa [List.isPrefixOf_iff_prefix])]
  all_goals exact (hothers (by simp) hstarts).elim

private theorem leftParen : Munches .leftParen ['('] rest := ⟨by simp, rfl⟩

private theorem rightParen : Munches .rightParen [')'] rest := ⟨by simp, rfl⟩

private theorem ampersand : Munches .ampersand ['&'] rest := ⟨by simp, rfl⟩

end Munches

/-! ### Texts -/

/-- A text that is split into tokens that say symbols, and blanks and comments between them. -/
inductive Spells : List Char → List Symbol → Prop where
  | nil : Spells [] []
  | symbol {kind : TokenKind} {text rest : List Char} {x : Symbol} {xs : List Symbol}
      (hkind : Token.isLayout kind = false)
      (h : Munches kind text rest) (hx : x.Says (Token.ofLexeme ⟨kind, 0, text⟩)) (hrest : Spells rest xs) :
      Spells (text ++ rest) (x :: xs)
  | layout {kind : TokenKind} {text rest : List Char} {xs : List Symbol} (hkind : Token.isLayout kind = true)
      (h : Munches kind text rest) (hrest : Spells rest xs) : Spells (text ++ rest) xs

/-- What a token says does not depend on where it stands. -/
theorem Symbol.Says.congr {x : Symbol} {t t' : Token} (h : x.Says t) (hword : t'.toWord = t.toWord) : x.Says t' := by
  have hkind : t'.kind = t.kind := congrArg Word.kind hword
  have htext : t'.text = t.text := congrArg Word.text hword
  cases h with
  | word => exact hword ▸ .word
  | integer ht hn => exact .integer (hkind.trans ht) (htext ▸ hn)
  | float ht hx => exact .float (hkind.trans ht) (htext ▸ hx)

/-- The token of a name. -/
theorem IsName.token {text : String} (h : IsName text) (start : Nat) :
    (Symbol.name text).Says (Token.ofLexeme ⟨.identifier, start, text.toList⟩) := by
  have hword : (Token.ofLexeme ⟨.identifier, start, text.toList⟩).toWord = ⟨.identifier, text⟩ := by
    simp [Token.ofLexeme, Token.toWord, h.unreserved]
  rw [Symbol.name, ← hword]
  exact .word

/-- The token of a mark. -/
theorem says_mark {m : TokenKind × String} (hm : m ∈ Token.marks) :
    (Symbol.mark m.1).Says (Token.ofLexeme ⟨m.1, 0, m.2.toList⟩) := by
  have hall : ∀ m ∈ Token.marks,
      (Token.ofLexeme ⟨m.1, 0, m.2.toList⟩).toWord = ⟨m.1, (Token.marks.lookup m.1).getD ""⟩ := by
    decide
  rw [Symbol.mark, ← hall m hm]
  exact .word

namespace Spells

variable {text : String} {rest : List Char} {xs : List Symbol}

theorem name (htext : IsName text) (hrest : Token.wordCharacter.EndsBefore rest) (h : Spells rest xs) :
    Spells (text.toList ++ rest) (.name text :: xs) :=
  .symbol rfl (.word htext.word hrest) (htext.token 0) h

theorem keyword (word : Keyword) (hrest : Token.wordCharacter.EndsBefore rest) (h : Spells rest xs) :
    Spells (word.text.toList ++ rest) (.keyword word :: xs) := by
  refine .symbol rfl (.keyword word hrest) ?_ h
  have hword : (Token.ofLexeme ⟨.identifier, 0, word.text.toList⟩).toWord = ⟨.keyword word, word.text⟩ := by
    cases word <;> decide
  rw [Symbol.keyword, ← hword]
  exact .word

/-- A mark in front of a blank. -/
theorem mark {m : TokenKind × String} (hm : m ∈ Token.marks) (h : Spells (' ' :: rest) xs) :
    Spells (m.2.toList ++ ' ' :: rest) (.mark m.1 :: xs) := by
  have hall : ∀ m ∈ Token.marks, Token.isLayout m.1 = false := by decide
  refine .symbol (hall m hm) (.mark hm fun c hc => ?_) (says_mark hm) h
  cases hc
  rfl

theorem leftParen (h : Spells rest xs) : Spells ('(' :: rest) (.mark .leftParen :: xs) :=
  .symbol rfl .leftParen (says_mark (m := (.leftParen, "(")) (by decide)) h

theorem rightParen (h : Spells rest xs) : Spells (')' :: rest) (.mark .rightParen :: xs) :=
  .symbol rfl .rightParen (says_mark (m := (.rightParen, ")")) (by decide)) h

theorem ampersand (h : Spells rest xs) : Spells ('&' :: rest) (.mark .ampersand :: xs) :=
  .symbol rfl .ampersand (says_mark (m := (.ampersand, "&")) (by decide)) h

theorem blank (hrest : Token.blankCharacter.EndsBefore rest) (h : Spells rest xs) : Spells (' ' :: rest) xs :=
  @layout .blank [' '] rest xs rfl
    (.blanks (by simp) (by simp [Token.blankCharacter, Scanner.startsWith, Scanner.someStartsWith]) hrest) h

end Spells

namespace Lexer

private theorem find_munched {l : Lexer TokenKind} {kind : TokenKind} {text rest : List Char}
    (hrules : l.rules = Token.rules)
    (hended : l.ended = false) (h : Munches kind text rest) (hrest : l.rest = text ++ rest) :
    l.find = .ok (some ⟨kind, l.index, text⟩) := by
  simp [find, hended, hrules, hrest, h.longest]

/-- Behind a lexeme that is found the search goes on with the rest of the text. -/
private theorem collectAtMost_munched {l : Lexer TokenKind} {bound : Nat} {kind : TokenKind} {text rest : List Char}
    (hrules : l.rules = Token.rules) (hended : l.ended = false) (hnone : l.lookahead = none)
    (h : Munches kind text rest) (hrest : l.rest = text ++ rest) :
    l.collectAtMost (bound + 1) =
      (({ l with index := l.index + text.length, rest := rest, lookahead := none } : Lexer TokenKind).collectAtMost
        bound >>= fun found => .ok (⟨kind, l.index, text⟩ :: found.1, found.2)) := by
  have hskip : l.skip ⟨kind, l.index, text⟩ =
      { l with index := l.index + text.length, rest := rest, lookahead := none } := by
    simp [skip, hrest, h.nonempty]
  rw [collectAtMost_found hnone (find_munched hrules hended h hrest), hskip]

/-- The lexemes of a text that spells symbols say these, but for blanks and comments between them. -/
private theorem collectAtMost_spelled {l : Lexer TokenKind} {bound : Nat} {xs : List Symbol}
    (hrules : l.rules = Token.rules)
    (hended : l.ended = false) (hnone : l.lookahead = none) (hbound : l.rest.length + 2 ≤ bound)
    (h : Spells l.rest xs) :
    ∃ lexemes l', l.collectAtMost bound = .ok (lexemes, l') ∧ l'.rest = [] ∧
      List.Forall₂ Symbol.Says (xs ++ [.word ⟨.endOfInput, ""⟩])
        ((lexemes.filter fun x => !Token.isLayout x.kind).map Token.ofLexeme) := by
  generalize hrest : l.rest = rest at h hbound
  have hpred : ∀ {text behind : List Char} {bound : Nat}, text ≠ [] → (text ++ behind).length + 2 ≤ bound →
      ∃ b, bound = b + 1 ∧ behind.length + 2 ≤ b := by
    intro text behind bound htext hbound
    have hpos := List.length_pos_iff.mpr htext
    rw [List.length_append] at hbound
    exact ⟨bound - 1, by omega, by omega⟩
  induction h generalizing l bound with
  | nil =>
    obtain ⟨bound, rfl⟩ : ∃ b, bound = b + 2 := ⟨bound - 2, by simp at hbound; omega⟩
    rw [collectAtMost_found hnone (find_end hrules hended hrest),
      collectAtMost_none (by simp [skip, hrest]) (by simp [skip, hrest, find])]
    have hend : (Symbol.word ⟨.endOfInput, ""⟩).Says (Token.ofLexeme ⟨.endOfInput, l.index, []⟩) :=
      .word (t := Token.ofLexeme ⟨.endOfInput, l.index, []⟩)
    exact ⟨_, _, rfl, by simp [skip, hrest], .cons hend .nil⟩
  | @symbol kind text rest x xs hkind h hx _ ih =>
    obtain ⟨bound, rfl, hbehind⟩ := hpred h.nonempty hbound
    obtain ⟨lexemes, l', hcollect, hrest', hsaid⟩ :=
      ih (l := { l with index := l.index + text.length, rest := rest, lookahead := none }) hrules hended rfl rfl hbehind
    rw [collectAtMost_munched hrules hended hnone h hrest, hcollect]
    refine ⟨_, _, rfl, hrest', ?_⟩
    rw [List.filter_cons_of_pos (by simp [hkind]), List.map_cons, List.cons_append]
    exact .cons (hx.congr rfl) hsaid
  | @layout kind text rest xs hkind h _ ih =>
    obtain ⟨bound, rfl, hbehind⟩ := hpred h.nonempty hbound
    obtain ⟨lexemes, l', hcollect, hrest', hsaid⟩ :=
      ih (l := { l with index := l.index + text.length, rest := rest, lookahead := none }) hrules hended rfl rfl hbehind
    rw [collectAtMost_munched hrules hended hnone h hrest, hcollect]
    exact ⟨_, _, rfl, hrest', by rwa [List.filter_cons_of_neg (by simp [hkind])]⟩

end Lexer

/-- A file whose text spells symbols has tokens that say them, and the end of the input behind these. -/
theorem SourceFile.tokens_of_spells {file : SourceFile} {xs : List Symbol} (h : Spells file.contents xs) :
    ∃ ts, file.tokens = .ok ts ∧ List.Forall₂ Symbol.Says (xs ++ [.word ⟨.endOfInput, ""⟩]) ts := by
  obtain ⟨lexemes, l', hcollect, hrest, hsaid⟩ :=
    Lexer.collectAtMost_spelled (l := { rules := Token.rules, rest := file.contents }) rfl rfl rfl
      (Nat.le_refl (file.contents.length + 2)) h
  refine ⟨_, ?_, hsaid⟩
  simp [tokens, Lexer.collect, hcollect, Stop.lift, hrest]

end RainCheck

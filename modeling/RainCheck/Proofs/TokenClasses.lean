import Mathlib.Computability.Language
import RainCheck.Proofs.Munching
import RainCheck.Proofs.Relexing

/-!
# Classes of tokens

The kinds of tokens as languages (`TokenKind.language`), and what a file is split into by these.
* A rule measures the longest prefix of a text that is in the class of its kind (`Token.measures_rule`).
* No word is in two classes, so there is one way to split a text by longest prefixes (`Cuts.unique`).
* The tokens of a file are what it is split into, or the place at which it cannot be split any further is refused.
-/

namespace RainCheck

open Computability

/-! ### Languages -/

/-- The words of one character of a kind. -/
def characters (p : Char → Prop) : Language Char := {w | ∃ c, p c ∧ w = [c]}

/-- The decimal digits. -/
def IsDigit (c : Char) : Prop := '0' ≤ c ∧ c ≤ '9'

/-- The letters and the underscore. -/
def IsLetter (c : Char) : Prop := 'a' ≤ c ∧ c ≤ 'z' ∨ 'A' ≤ c ∧ c ≤ 'Z' ∨ c = '_'

/-- The characters between tokens. -/
def IsBlank (c : Char) : Prop := c ∈ [' ', '\t', '\r', '\n']

/-- A digit, and then digits and underscores. -/
def integers : Language Char := characters IsDigit * (characters fun c => IsDigit c ∨ c = '_')∗

/-- The spellings of a kind of punctuation. -/
def spellings (kind : TokenKind) : Language Char := {w | ∃ text, (kind, text) ∈ Token.marks ∧ w = text.toList}

/-- The words of a kind.  Keywords are names at first, and the end of the input has no words. -/
def TokenKind.language : TokenKind → Language Char
  | .blank => characters IsBlank * (characters IsBlank)∗
  | .comment => {['/', '/']} * (characters (· ≠ '\n'))∗
  | .integer => integers
  | .float => integers * ({['.']} * integers)
  | .identifier => characters IsLetter * (characters fun c => IsLetter c ∨ IsDigit c)∗
  | kind => spellings kind

/-- The length of the longest prefix of a text that is in a language, or 0 if there is none. -/
def IsLongestPrefix (L : Language Char) (text : List Char) (n : Nat) : Prop :=
  (text.take n ∈ L ∧ n ≤ text.length ∧ ∀ w ∈ L, w <+: text → w.length ≤ n) ∨ n = 0 ∧ ∀ w ∈ L, ¬w <+: text

section

variable {p q : Char → Prop} {w : List Char} {c : Char}

private theorem mem_word {v : List Char} : w ∈ ({v} : Language Char) ↔ w = v := Iff.rfl

/-- Words of any number of characters of a kind. -/
private theorem mem_kstar_characters : w ∈ (characters p)∗ ↔ ∀ c ∈ w, p c := by
  rw [Language.mem_kstar]
  constructor
  · rintro ⟨words, rfl, hwords⟩ c hc
    obtain ⟨word, hword, hc⟩ := List.mem_flatten.mp hc
    obtain ⟨d, hd, rfl⟩ := hwords word hword
    exact List.mem_singleton.mp hc ▸ hd
  · intro hall
    refine ⟨w.map ([·]), by rw [← List.flatMap_def, List.flatMap_singleton'], fun word hword => ?_⟩
    obtain ⟨c, hc, rfl⟩ := List.mem_map.mp hword
    exact ⟨c, hall c hc, rfl⟩

/-- Words of a character of one kind, and then any number of another kind. -/
private theorem mem_lead : w ∈ characters p * (characters q)∗ ↔ ∃ c cs, w = c :: cs ∧ p c ∧ ∀ d ∈ cs, q d := by
  rw [Language.mem_mul]
  constructor
  · rintro ⟨_, ⟨c, hc, rfl⟩, cs, hcs, rfl⟩
    exact ⟨c, cs, rfl, hc, mem_kstar_characters.mp hcs⟩
  · rintro ⟨c, cs, rfl, hc, hcs⟩
    exact ⟨[c], ⟨c, hc, rfl⟩, cs, mem_kstar_characters.mpr hcs, rfl⟩

/-- The words that a character and its followers make. -/
private theorem mem_lead_iff {head tail : Scanner} (hhead : ∀ c, head.startsWith c = true ↔ p c)
    (htail : ∀ c, tail.startsWith c = true ↔ q c) :
    w ∈ characters p * (characters q)∗ ↔ head.leadBy tail w = true := by
  rw [mem_lead]
  cases w with
  | nil => simp [Scanner.leadBy]
  | cons c cs => simp [Scanner.leadBy, hhead, htail]

end

namespace Token

private theorem startsWith_digit (c : Char) : digit.startsWith c = true ↔ IsDigit c := by
  simp [digit, Scanner.startsWith, IsDigit]

private theorem startsWith_numberCharacter (c : Char) : numberCharacter.startsWith c = true ↔ IsDigit c ∨ c = '_' := by
  simp [numberCharacter, Scanner.startsWith, Scanner.someStartsWith, startsWith_digit, eq_comm (a := '_')]

private theorem startsWith_letter (c : Char) : letter.startsWith c = true ↔ IsLetter c := by
  simp [letter, Scanner.startsWith, Scanner.someStartsWith, IsLetter, eq_comm (a := '_')]

private theorem startsWith_wordCharacter (c : Char) : wordCharacter.startsWith c = true ↔ IsLetter c ∨ IsDigit c := by
  simp [wordCharacter, Scanner.startsWith, Scanner.someStartsWith, startsWith_letter, startsWith_digit]

private theorem startsWith_blankCharacter (c : Char) : blankCharacter.startsWith c = true ↔ IsBlank c := by
  simp [blankCharacter, Scanner.startsWith, Scanner.someStartsWith, IsBlank, eq_comm (b := c)]

variable {w : List Char}

private theorem mem_integers : w ∈ integers ↔ isInteger w = true :=
  mem_lead_iff startsWith_digit startsWith_numberCharacter

private theorem mem_floats : w ∈ TokenKind.language .float ↔
    ∃ whole places, w = whole ++ '.' :: places ∧ isInteger whole = true ∧ isInteger places = true := by
  change w ∈ integers * ({['.']} * integers) ↔ _
  rw [Language.mem_mul]
  constructor
  · rintro ⟨whole, hwhole, behind, hbehind, rfl⟩
    obtain ⟨point, hpoint, places, hplaces, rfl⟩ := Language.mem_mul.mp hbehind
    exact ⟨whole, places, by rw [mem_word.mp hpoint]; rfl, mem_integers.mp hwhole, mem_integers.mp hplaces⟩
  · rintro ⟨whole, places, rfl, hwhole, hplaces⟩
    have hbehind := Language.append_mem_mul (mem_word.mpr (Eq.refl ['.'])) (mem_integers.mpr hplaces)
    exact ⟨whole, mem_integers.mpr hwhole, _, hbehind, rfl⟩

private theorem mem_words : w ∈ TokenKind.language .identifier ↔ isWord w = true := by
  rw [isWord_eq]
  exact mem_lead_iff startsWith_letter startsWith_wordCharacter

private theorem mem_blanks : w ∈ TokenKind.language .blank ↔ w ≠ [] ∧ ∀ c ∈ w, blankCharacter.startsWith c = true := by
  change w ∈ characters IsBlank * (characters IsBlank)∗ ↔ _
  rw [mem_lead]
  cases w with
  | nil => simp
  | cons c cs => simp [startsWith_blankCharacter]

private theorem mem_comments : w ∈ TokenKind.language .comment ↔ ∃ body, w = '/' :: '/' :: body ∧ '\n' ∉ body := by
  change w ∈ {['/', '/']} * (characters (· ≠ '\n'))∗ ↔ _
  rw [Language.mem_mul]
  constructor
  · rintro ⟨slashes, hslashes, body, hbody, rfl⟩
    exact ⟨body, by rw [mem_word.mp hslashes]; rfl, fun hmem => mem_kstar_characters.mp hbody _ hmem rfl⟩
  · rintro ⟨body, rfl, hbody⟩
    exact ⟨['/', '/'], mem_word.mpr rfl, body, mem_kstar_characters.mpr fun c hc heq => hbody (heq ▸ hc), rfl⟩

/-- The kinds that are no punctuation. -/
private theorem language_eq_spellings {kind : TokenKind}
    (h : kind ∉ [.blank, .comment, .integer, .float, .identifier]) :
    kind.language = spellings kind := by
  cases kind <;> first | rfl | exact absurd (by simp) h

private theorem mem_marks {m : TokenKind × String} (hm : m ∈ marks) : w ∈ m.1.language ↔ w = m.2.toList := by
  have hother : ∀ m ∈ marks, m.1 ∉ [TokenKind.blank, .comment, .integer, .float, .identifier] := by decide
  have honce : ∀ m ∈ marks, ∀ m' ∈ marks, m.1 = m'.1 → m = m' := by decide
  rw [language_eq_spellings (hother m hm)]
  constructor
  · rintro ⟨text, htext, rfl⟩
    rw [honce m hm (m.1, text) htext rfl]
  · rintro rfl
    exact ⟨m.2, hm, rfl⟩

end Token

/-! ### Rules measure longest prefixes -/

namespace Scanner

variable {s head tail : Scanner} {L : Language Char} {text rest w more : List Char}

/-- What a scanner matches of a text is the longest prefix in a language. -/
def Measures (s : Scanner) (L : Language Char) : Prop := ∀ text, ∃ n, s.run text = .ok n ∧ IsLongestPrefix L text n

/-- It is enough that a match is in the language, and at least as long as each prefix in the language. -/
private theorem measures_of (hinside : s.staysInside = true) (hnil : [] ∉ L)
    (hsound : ∀ {text n}, s.run text = .ok n → 0 < n → text.take n ∈ L)
    (hcomplete : ∀ w ∈ L, ∀ rest, ∃ n, s.run (w ++ rest) = .ok n ∧ w.length ≤ n) : s.Measures L := by
  intro text
  obtain ⟨n, hn, hle⟩ := run_le s hinside text
  have hlongest : ∀ w ∈ L, w <+: text → w.length ≤ n := by
    rintro w hw ⟨rest, rfl⟩
    obtain ⟨m, hm, hlength⟩ := hcomplete w hw rest
    cases hm.symm.trans hn
    exact hlength
  refine ⟨n, hn, ?_⟩
  rcases Nat.eq_zero_or_pos n with rfl | hpos
  · refine .inr ⟨rfl, fun w hw hstarts => hnil ?_⟩
    rw [← List.eq_nil_of_length_eq_zero (Nat.le_zero.mp (hlongest w hw hstarts))]
    exact hw
  · exact .inl ⟨hsound hn hpos, hle, hlongest⟩

private theorem endsBefore_dropWhile (s : Scanner) (text : List Char) :
    s.EndsBefore (text.dropWhile fun c => s.startsWith c) := by
  intro c hc
  have hhead := List.head?_dropWhile_not (fun c => s.startsWith c) text
  rw [hc] at hhead
  exact hhead

private theorem startsWith_of_mem_takeWhile (s : Scanner) (text : List Char) {c : Char}
    (hc : c ∈ text.takeWhile fun c => s.startsWith c) : s.startsWith c = true := by
  have hall := List.all_takeWhile (p := fun c => s.startsWith c) (l := text)
  exact List.all_eq_true.mp hall c hc

private theorem leadBy_append (hw : leadBy head tail w = true) (hmore : ∀ c ∈ more, tail.startsWith c = true) :
    leadBy head tail (w ++ more) = true := by
  cases w with
  | nil => cases hw
  | cons c cs =>
    obtain ⟨hc, hcs⟩ := Bool.and_eq_true_iff.mp hw
    rw [List.cons_append, leadBy, hc, List.all_append, hcs, List.all_eq_true.mpr hmore]
    rfl

private theorem measures_leadBy (hhead : head.isSingle = true) (htail : tail.isSingle = true)
    (hinside : head.staysInside = true ∧ tail.staysInside = true) (hL : ∀ {w}, w ∈ L ↔ leadBy head tail w = true) :
    (inOrderThen [head] (.many tail)).Measures L := by
  refine measures_of ?_ (by simp [hL, leadBy]) (fun hrun hpos => ?_) fun w hw rest => ?_
  · simp [staysInside, allStayInside, hinside]
  · exact hL.mpr (leadBy_of_run hhead htail hinside.1 hrun hpos)
  · have hmore := leadBy_append (hL.mp hw) fun c => startsWith_of_mem_takeWhile tail rest
    have hrun := run_leadBy hhead htail hmore (endsBefore_dropWhile tail rest)
    rw [List.append_assoc, List.takeWhile_append_dropWhile] at hrun
    exact ⟨_, hrun, by rw [List.length_append]; exact Nat.le_add_right _ _⟩

private theorem measures_many (hs : s.isSingle = true) (hinside : s.staysInside = true)
    (hL : ∀ {w}, w ∈ L ↔ w ≠ [] ∧ ∀ c ∈ w, s.startsWith c = true) : (many s).Measures L := by
  refine measures_of hinside (by simp [hL]) (fun {text n} hrun hpos => ?_) fun w hw rest => ?_
  · obtain ⟨m, hm, hle⟩ := run_le (many s) hinside text
    cases hm.symm.trans hrun
    refine hL.mpr ⟨fun hnil => ?_, run_many_inv hs hrun⟩
    have hlength := congrArg List.length hnil
    rw [List.length_take_of_le hle] at hlength
    exact Nat.ne_of_gt hpos hlength
  · have hall : ∀ c ∈ w ++ rest.takeWhile fun c => s.startsWith c, s.startsWith c = true := by
      intro c hc
      rcases List.mem_append.mp hc with hc | hc
      · exact (hL.mp hw).2 c hc
      · exact startsWith_of_mem_takeWhile s rest hc
    have hrun := run_many hs hall (endsBefore_dropWhile s rest)
    rw [List.append_assoc, List.takeWhile_append_dropWhile] at hrun
    exact ⟨_, hrun, by rw [List.length_append]; exact Nat.le_add_right _ _⟩

private theorem measures_exactly (hw : w ≠ []) (hL : ∀ {v}, v ∈ L ↔ v = w) : (exactly w).Measures L := by
  refine measures_of rfl (fun hnil => hw (hL.mp hnil).symm) (fun {text n} hrun hpos => ?_) fun v hv rest => ?_
  · rw [run] at hrun
    split at hrun
    · rename_i hstarts
      cases hrun
      exact hL.mpr (List.prefix_iff_eq_take.mp (List.isPrefixOf_iff_prefix.mp hstarts)).symm
    · cases hrun
      exact absurd hpos (Nat.lt_irrefl 0)
  · rw [hL.mp hv, run, if_pos (List.isPrefixOf_iff_prefix.mpr (List.prefix_append w rest))]
    exact ⟨_, rfl, Nat.le_refl _⟩

end Scanner

namespace Token

open Scanner

private theorem measures_float : float.Measures (TokenKind.language .float) := by
  refine measures_of rfl (fun hnil => ?_) (fun hrun hpos => ?_) fun w hw rest => ?_
  · obtain ⟨whole, places, heq, -⟩ := mem_floats.mp hnil
    cases whole <;> cases heq
  · obtain ⟨whole, places, htake, hwhole, hplaces⟩ := parts_of_run_float hrun hpos
    exact mem_floats.mpr ⟨whole, places, htake, hwhole, hplaces⟩
  · obtain ⟨whole, places, rfl, hwhole, hplaces⟩ := mem_floats.mp hw
    have hmore := leadBy_append hplaces fun c => startsWith_of_mem_takeWhile numberCharacter rest
    have hrun := run_float hwhole hmore (endsBefore_dropWhile numberCharacter rest)
    rw [List.append_assoc, List.cons_append, List.append_assoc, List.takeWhile_append_dropWhile] at hrun
    refine ⟨_, by rw [List.append_assoc, List.cons_append]; exact hrun, ?_⟩
    simp only [List.length_append, List.length_cons]
    omega

/-- The rest of a line can be added to a comment. -/
private theorem run_comment_append {body : List Char} (hbody : '\n' ∉ body) (rest : List Char) :
    comment.run ('/' :: '/' :: body ++ rest) = .ok ('/' :: '/' :: body ++ rest.takeWhile (· != '\n')).length := by
  have hmore : '\n' ∉ body ++ rest.takeWhile (· != '\n') := by
    rw [List.mem_append, not_or]
    refine ⟨hbody, fun hmem => ?_⟩
    simpa using List.all_eq_true.mp List.all_takeWhile _ hmem
  have hbehind : ∀ d, (rest.dropWhile (· != '\n')).head? = some d → d = '\n' := by
    intro d hd
    have hhead := List.head?_dropWhile_not (· != '\n') rest
    rw [hd] at hhead
    simpa using hhead
  have hrun := run_comment hmore hbehind
  rw [List.cons_append, List.cons_append, List.append_assoc, List.takeWhile_append_dropWhile] at hrun
  exact hrun

private theorem measures_comment : comment.Measures (TokenKind.language .comment) := by
  refine measures_of rfl (fun hnil => ?_) (fun {text n} hrun hpos => ?_) fun w hw rest => ?_
  · obtain ⟨body, heq, -⟩ := mem_comments.mp hnil
    cases heq
  · by_cases hstarts : ['/', '/'] <+: text
    · obtain ⟨rest, rfl⟩ := hstarts
      cases (@run_comment_append [] List.not_mem_nil rest).symm.trans hrun
      have hsplit : ['/', '/'] ++ rest = ['/', '/'] ++ rest.takeWhile (· != '\n') ++ rest.dropWhile (· != '\n') := by
        rw [List.append_assoc, List.takeWhile_append_dropWhile]
      refine mem_comments.mpr ⟨rest.takeWhile (· != '\n'), ?_, fun hmem => ?_⟩
      · rw [hsplit]
        exact List.take_left
      · simpa using List.all_eq_true.mp List.all_takeWhile _ hmem
    · rw [comment, run, runAll, behind, ok_bind, run, if_neg (by rwa [List.isPrefixOf_iff_prefix])] at hrun
      cases hrun
      exact absurd hpos (Nat.lt_irrefl 0)
  · obtain ⟨body, rfl, hbody⟩ := mem_comments.mp hw
    exact ⟨_, run_comment_append hbody rest, by rw [List.length_append]; exact Nat.le_add_right _ _⟩

/-- Each rule but that of the end of the input measures the longest prefix in the class of its kind. -/
theorem measures_rule {r : Rule TokenKind} (hr : r ∈ innerRules) : r.scanner.Measures r.kind.language := by
  simp only [innerRules, List.mem_append, List.mem_cons, List.not_mem_nil, or_false, List.mem_map] at hr
  rcases hr with (rfl | rfl | rfl | rfl | rfl) | ⟨m, hm, rfl⟩
  · exact measures_many (by decide) (by decide) mem_blanks
  · exact measures_comment
  · exact measures_float
  · exact measures_leadBy (by decide) (by decide) (by decide) mem_integers
  · exact measures_leadBy (by decide) (by decide) (by decide)
      (mem_words.trans (by rw [isWord_eq]; rfl))
  · have hne : ∀ m ∈ marks, m.2.toList ≠ [] := by decide
    exact measures_exactly (hne m hm) (mem_marks hm)

end Token

/-! ### No word is in two classes -/

namespace TokenKind

/-- The kind of a word, which is told by its first character, the point of a number and the spelling of punctuation. -/
def ofWord? : List Char → Option TokenKind
  | [] => none
  | c :: cs =>
    if Token.blankCharacter.startsWith c then some .blank
    else if Token.digit.startsWith c then if '.' ∈ cs then some .float else some .integer
    else if Token.letter.startsWith c then some .identifier
    else if c = '/' ∧ cs.head? = some '/' then some .comment
    else (Token.marks.find? fun m => m.2.toList = c :: cs).map (·.1)

variable {kind kind' : TokenKind} {w : List Char}

private theorem not_mem_point {text : List Char} (h : text.all (fun d => Token.numberCharacter.startsWith d) = true) :
    '.' ∉ text := fun hmem => by
  have hpoint := List.all_eq_true.mp h '.' hmem
  revert hpoint
  decide

private theorem lead_of_leadBy {head tail : Scanner} (h : Scanner.leadBy head tail w = true) : ∃ c cs, w = c :: cs ∧
    head.startsWith c = true ∧ cs.all (fun d => tail.startsWith d) = true := by
  cases w with
  | nil => cases h
  | cons c cs => exact ⟨c, cs, rfl, Bool.and_eq_true_iff.mp h⟩

private theorem not_blank_of_digit {c : Char} (hc : Token.digit.startsWith c = true) :
    Token.blankCharacter.startsWith c = false := by
  rw [Bool.eq_false_iff]
  intro hblank
  rcases Munches.blank_cases hblank with rfl | rfl | rfl | rfl <;> cases hc

private theorem not_blank_of_letter {c : Char} (hc : Token.letter.startsWith c = true) :
    Token.blankCharacter.startsWith c = false := by
  rw [Bool.eq_false_iff]
  intro hblank
  rcases Munches.blank_cases hblank with rfl | rfl | rfl | rfl <;> cases hc

private theorem not_digit_of_letter {c : Char} (hc : Token.letter.startsWith c = true) :
    Token.digit.startsWith c = false := by
  rw [Bool.eq_false_iff]
  intro hdigit
  have hnine : c.val.toNat ≤ '9'.val.toNat := UInt32.le_iff_toNat_le.mp ((Token.startsWith_digit c).mp hdigit).2
  rcases (Token.startsWith_letter c).mp hc with ⟨hletter, -⟩ | ⟨hletter, -⟩ | rfl
  · exact absurd (Nat.le_trans (UInt32.le_iff_toNat_le.mp hletter) hnine) (by decide)
  · exact absurd (Nat.le_trans (UInt32.le_iff_toNat_le.mp hletter) hnine) (by decide)
  · exact absurd hnine (by decide)

private theorem ofWord?_of_mem (hw : w ∈ kind.language) : ofWord? w = some kind := by
  by_cases hother : kind ∈ [TokenKind.blank, .comment, .integer, .float, .identifier]
  · simp only [List.mem_cons, List.not_mem_nil, or_false] at hother
    rcases hother with rfl | rfl | rfl | rfl | rfl
    · obtain ⟨hne, hall⟩ := Token.mem_blanks.mp hw
      cases w with
      | nil => exact absurd rfl hne
      | cons c cs => rw [ofWord?, if_pos (hall c List.mem_cons_self)]
    · obtain ⟨body, rfl, -⟩ := Token.mem_comments.mp hw
      rfl
    · obtain ⟨c, cs, rfl, hc, hcs⟩ := lead_of_leadBy (Token.mem_integers.mp hw)
      rw [ofWord?, not_blank_of_digit hc, if_neg Bool.false_ne_true, if_pos hc, if_neg (not_mem_point hcs)]
    · obtain ⟨whole, places, rfl, hwhole, -⟩ := Token.mem_floats.mp hw
      obtain ⟨c, cs, rfl, hc, -⟩ := lead_of_leadBy hwhole
      rw [List.cons_append, ofWord?, not_blank_of_digit hc, if_neg Bool.false_ne_true, if_pos hc, if_pos (by simp)]
    · obtain ⟨c, cs, rfl, hc, -⟩ := lead_of_leadBy (Token.isWord_eq w ▸ Token.mem_words.mp hw)
      rw [ofWord?, not_blank_of_letter hc, if_neg Bool.false_ne_true, not_digit_of_letter hc, if_neg Bool.false_ne_true,
        if_pos hc]
  · rw [Token.language_eq_spellings hother] at hw
    obtain ⟨text, hm, rfl⟩ := hw
    have hmarks : ∀ m ∈ Token.marks, ofWord? m.2.toList = some m.1 := by decide
    exact hmarks _ hm

/-- A word is in one class at most. -/
private theorem eq_of_mem (hw : w ∈ kind.language) (hw' : w ∈ kind'.language) : kind = kind' :=
  Option.some.inj ((ofWord?_of_mem hw).symm.trans (ofWord?_of_mem hw'))

private theorem ne_nil_of_mem (hw : w ∈ kind.language) : w ≠ [] := by
  rintro rfl
  cases ofWord?_of_mem hw

/-- There is a rule for each class with words. -/
private theorem exists_rule (hw : w ∈ kind.language) : ∃ r ∈ Token.innerRules, r.kind = kind := by
  by_cases hother : kind ∈ [TokenKind.blank, .comment, .integer, .float, .identifier]
  · have hrules : ∀ kind ∈ [TokenKind.blank, .comment, .integer, .float, .identifier],
        ∃ r ∈ Token.innerRules, r.kind = kind := by decide
    exact hrules kind hother
  · rw [Token.language_eq_spellings hother] at hw
    obtain ⟨text, hm, -⟩ := hw
    exact ⟨_, List.mem_append_right _ (List.mem_map.mpr ⟨_, hm, rfl⟩), rfl⟩

end TokenKind

/-! ### Splitting by longest prefixes -/

/-- A text is split by longest prefixes from a position on, up to its end or to where no prefix is in a class. -/
inductive Cuts : (start : Nat) → (text : List Char) → List (Lexeme TokenKind) → (stuck : Option Nat) → Prop where
  | ended (start : Nat) : Cuts start [] [] none
  | stuck {start : Nat} {text : List Char} (htext : text ≠ [])
    (hnone : ∀ (kind : TokenKind), ∀ w ∈ kind.language, ¬w <+: text) :
    Cuts start text [] (some start)
  | lexeme {start : Nat} {kind : TokenKind} {text w rest : List Char} {lexemes : List (Lexeme TokenKind)}
    {stuck : Option Nat} (htext : text = w ++ rest) (hw : w ∈ kind.language)
    (hlongest : ∀ (kind' : TokenKind), ∀ w' ∈ kind'.language, w' <+: text → w'.length ≤ w.length)
    (h : Cuts (start + w.length) rest lexemes stuck) : Cuts start text (⟨kind, start, w⟩ :: lexemes) stuck

namespace Cuts

variable {start : Nat} {text : List Char} {lexemes lexemes' : List (Lexeme TokenKind)} {stuck stuck' : Option Nat}

/-- There is one way to split a text. -/
theorem unique (h : Cuts start text lexemes stuck) (h' : Cuts start text lexemes' stuck') :
    lexemes' = lexemes ∧ stuck' = stuck := by
  induction h generalizing lexemes' stuck' with
  | ended start =>
    cases h' with
    | ended => exact ⟨rfl, rfl⟩
    | stuck htext => exact absurd rfl htext
    | lexeme htext hw => exact absurd (List.append_eq_nil_iff.mp htext.symm).1 (TokenKind.ne_nil_of_mem hw)
  | stuck htext hnone =>
    cases h' with
    | ended => exact absurd rfl htext
    | stuck => exact ⟨rfl, rfl⟩
    | lexeme htext hw => exact absurd ⟨_, htext.symm⟩ (hnone _ _ hw)
  | @lexeme start kind text w rest lexemes stuck htext hw hlongest _ ih =>
    cases h' with
    | ended => exact absurd (List.append_eq_nil_iff.mp htext.symm).1 (TokenKind.ne_nil_of_mem hw)
    | stuck _ hnone => exact absurd ⟨_, htext.symm⟩ (hnone _ _ hw)
    | @lexeme _ kind' _ w' rest' _ _ htext' hw' hlongest' h' =>
      have hstarts : w <+: text := ⟨rest, htext.symm⟩
      have hstarts' : w' <+: text := ⟨rest', htext'.symm⟩
      obtain rfl : w' = w := by
        have hlength := Nat.le_antisymm (hlongest kind' w' hw' hstarts') (hlongest' kind w hw hstarts)
        exact (List.prefix_of_prefix_length_le hstarts' hstarts (Nat.le_of_eq hlength)).eq_of_length hlength
      obtain rfl := List.append_cancel_left (htext'.symm.trans htext)
      obtain rfl := TokenKind.eq_of_mem hw hw'
      obtain ⟨rfl, rfl⟩ := ih h'
      exact ⟨rfl, rfl⟩

/-- The lexemes are words of their kinds. -/
private theorem mem_language (h : Cuts start text lexemes stuck) : ∀ l ∈ lexemes, l.text ∈ l.kind.language := by
  induction h with
  | ended => simp
  | stuck => simp
  | lexeme _ hw _ _ ih => exact List.forall_mem_cons.mpr ⟨hw, ih⟩

/-- If no rule matches more than `n` characters, no prefix in a class is longer. -/
private theorem le_of_measures {n : Nat} (hmax : ∀ r ∈ Token.rules, ∃ m, r.scanner.run text = .ok m ∧ m ≤ n)
    (kind : TokenKind) (w : List Char) (hw : w ∈ kind.language) (hstarts : w <+: text) : w.length ≤ n := by
  obtain ⟨r, hr, rfl⟩ := TokenKind.exists_rule hw
  obtain ⟨m, hm, hle⟩ := hmax r (Token.mem_rules.mpr (.inl hr))
  obtain ⟨m', hm', hlongest⟩ := Token.measures_rule hr text
  cases hm.symm.trans hm'
  rcases hlongest with ⟨-, -, hlongest⟩ | ⟨-, hnone⟩
  · exact Nat.le_trans (hlongest w hw hstarts) hle
  · exact absurd hstarts (hnone w hw)

/-- What the winning rule matches is in the class of its kind, if it is not the end of the text. -/
private theorem mem_of_wins {n : Nat} {kind : TokenKind} (hwins : Lexer.Wins Token.rules text n kind) :
    text = [] ∧ kind = .endOfInput ∨ text.take n ∈ kind.language := by
  obtain ⟨before, scanner, behind, hrules, hrun, hpos, -⟩ := hwins
  have hr : ⟨kind, scanner⟩ ∈ Token.rules := by
    rw [hrules]
    exact List.mem_append_right _ List.mem_cons_self
  rcases Token.mem_rules.mp hr with hr | hr
  · obtain ⟨m, hm, hlongest⟩ := Token.measures_rule hr text
    cases hm.symm.trans hrun
    rcases hlongest with ⟨hmem, -⟩ | ⟨hzero, -⟩
    · exact .inr hmem
    · exact absurd hzero (Nat.ne_of_gt hpos)
  · cases hr
    cases text with
    | nil => exact .inl ⟨rfl, rfl⟩
    | cons c text =>
      cases hrun
      exact absurd hpos (Nat.lt_irrefl 0)

/-- What the lexer of tokens finds is what the text is split into, and at its end the end of the input. -/
private theorem of_finds {all : List (Lexeme TokenKind)} {final : Nat}
    (h : Lexer.Finds Token.rules start text all final) :
    (∃ lexemes, Cuts start text lexemes none ∧ all = lexemes ++ [⟨.endOfInput, start + text.length, []⟩] ∧
      final = start + text.length + 1) ∨ Cuts start text all (some final) ∧ final < start + text.length := by
  induction h with
  | @stuck start text hstuck =>
    -- at the end of the text the end of the input would be found
    have htext : text ≠ [] := by
      rintro rfl
      cases hstuck ⟨.endOfInput, .endOfInput⟩ (Token.mem_rules.mpr (.inr rfl))
    refine .inr ⟨.stuck htext fun kind w hw hstarts => TokenKind.ne_nil_of_mem hw ?_, ?_⟩
    · have hle := le_of_measures (fun r hr => ⟨0, hstuck r hr, Nat.le_refl 0⟩) kind w hw hstarts
      exact List.eq_nil_of_length_eq_zero (Nat.le_zero.mp hle)
    · exact Nat.lt_add_of_pos_right (List.length_pos_iff.mpr htext)
  | @cons start n final text kind lexemes htext hwins hn _ ih =>
    have hmem := (mem_of_wins hwins).resolve_left fun hend => htext hend.1
    have hlength : (text.take n).length = n := List.length_take_of_le hn
    have hdrop : start + n + (text.drop n).length = start + text.length := by
      rw [List.length_drop]
      omega
    have cut {lexemes : List (Lexeme TokenKind)} {stuck : Option Nat}
        (h : Cuts (start + n) (text.drop n) lexemes stuck) :
        Cuts start text (⟨kind, start, text.take n⟩ :: lexemes) stuck := by
      refine .lexeme (List.take_append_drop n text).symm hmem (fun kind' w hw hstarts => ?_) (hlength.symm ▸ h)
      rw [hlength]
      exact le_of_measures (fun r hr => hwins.le hr) kind' w hw hstarts
    rw [hdrop] at ih
    rcases ih with ⟨inner, hcuts, rfl, rfl⟩ | ⟨hcuts, hlt⟩
    · exact .inl ⟨_, cut hcuts, rfl, rfl⟩
    · exact .inr ⟨cut hcuts, hlt⟩
  | @last start n text kind htext hwins =>
    obtain ⟨rfl, rfl⟩ | hmem := mem_of_wins hwins
    · exact .inl ⟨[], .ended start, rfl, rfl⟩
    · rw [htext, List.take_nil] at hmem
      exact absurd rfl (TokenKind.ne_nil_of_mem hmem)

end Cuts

/-! ### Tokens of a file -/

/-- A token of a lexeme: a name is a keyword if it is spelled like one, and all else stays what it is. -/
structure Lexeme.Retags (l : Lexeme TokenKind) (t : Token) : Prop where
  span : t.span = l.span
  text : t.text = String.ofList l.text
  keyword : ∀ word, t.kind = .keyword word ↔ l.kind = .identifier ∧ t.text = word.text
  kept : (∀ word, t.kind ≠ .keyword word) → t.kind = l.kind

private theorem Keyword.ofText?_eq_some {text : String} {word : Keyword} :
    ofText? text = some word ↔ text = word.text := by
  have hfound : ∀ word ∈ all, ofText? word.text = some word := by decide
  constructor
  · intro h
    unfold ofText? at h
    have htext := List.find?_some h
    exact (of_decide_eq_true htext).symm
  · rintro rfl
    exact hfound word (by cases word <;> decide)

namespace Token

variable {l : Lexeme TokenKind}

private theorem kind_of_name (h : l.kind = .identifier) :
    (ofLexeme l).kind = ((Keyword.ofText? (String.ofList l.text)).map TokenKind.keyword).getD .identifier := by
  unfold ofLexeme
  dsimp only
  rw [h]
  cases Keyword.ofText? (String.ofList l.text) <;> rfl

private theorem kind_of_other (h : l.kind ≠ .identifier) : (ofLexeme l).kind = l.kind := by
  unfold ofLexeme
  dsimp only
  split
  · rename_i heq _
    exact absurd heq h
  · rfl

private theorem retags_ofLexeme (hl : l.text ∈ l.kind.language) : l.Retags (ofLexeme l) := by
  by_cases hname : l.kind = .identifier
  · have hkind := kind_of_name hname
    cases hfound : Keyword.ofText? (String.ofList l.text) with
    | none =>
      rw [hfound] at hkind
      refine ⟨rfl, rfl, fun word => ⟨fun h => ?_, fun h => ?_⟩, fun _ => hkind.trans hname.symm⟩
      · cases hkind.symm.trans h
      · cases hfound.symm.trans (Keyword.ofText?_eq_some.mpr h.2)
    | some found =>
      rw [hfound] at hkind
      refine ⟨rfl, rfl, fun word => ⟨fun h => ⟨hname, ?_⟩, fun h => ?_⟩, fun h => absurd hkind (h found)⟩
      · cases hkind.symm.trans h
        exact Keyword.ofText?_eq_some.mp hfound
      · cases hfound.symm.trans (Keyword.ofText?_eq_some.mpr h.2)
        exact hkind
  · have hword : ∀ word, l.kind ≠ .keyword word := by
      intro word heq
      obtain ⟨r, hr, hkind⟩ := TokenKind.exists_rule hl
      have hnone : ∀ r ∈ innerRules, ∀ word ∈ Keyword.all, r.kind ≠ .keyword word := by decide
      exact hnone r hr word (by cases word <;> decide) (hkind.trans heq)
    have hkind := kind_of_other hname
    exact ⟨rfl, rfl, fun word => ⟨fun h => absurd (hkind.symm.trans h) (hword word), fun h => absurd h.1 hname⟩,
      fun _ => hkind⟩

end Token

/-- What a file is split into decides its tokens. -/
theorem SourceFile.tokens_of_finds {file : SourceFile} {all : List (Lexeme TokenKind)} {final : Nat}
    (h : Lexer.Finds Token.rules 0 file.contents all final) :
    file.tokens = if final < file.length then .error (.refused ⟨.ofLength final 1, .unknownText⟩)
      else .ok ((all.filter fun l => !Token.isLayout l.kind).map Token.ofLexeme) := by
  have hawaits : Lexer.Awaits { rules := Token.rules, rest := file.contents } file.contents all final :=
    ⟨rfl, fun _ => h, nofun, .inl rfl⟩
  have hbound : all.length < file.contents.length + 2 := Nat.lt_succ_of_le h.length_le
  obtain ⟨l, hcollect, hl⟩ := hawaits.collectAtMost_eq hbound
  have hindex : l.index = final := hl.index_eq
  have hrest : l.rest.isEmpty = decide (file.length ≤ final) := by
    rw [hl.rest, hindex, Bool.eq_iff_iff, List.isEmpty_iff, List.drop_eq_nil_iff, decide_eq_true_iff]
    rfl
  simp only [tokens, Lexer.collect, hcollect, Stop.lift, ok_bind, hrest, hindex, decide_eq_true_eq]
  by_cases hlt : final < file.length
  · rw [if_neg (Nat.not_le.mpr hlt), if_pos hlt]
  · rw [if_pos (Nat.not_lt.mp hlt), if_neg hlt]
    rfl

/--
Tokens are longest words.
* Each rule measures the longest prefix of a text that is in the class of its kind; the last one matches the end only.
* There is one way to split a file by longest prefixes.  If it gets stuck, the file is refused at this position;
  otherwise its tokens are the words that are no layout, and the end of the input behind them.
-/
theorem SourceFile.tokens_split (file : SourceFile) :
    (∀ r ∈ Token.rules, ∀ text : List Char, ∃ n, r.scanner.run text = .ok n ∧
      (r.kind ≠ .endOfInput → IsLongestPrefix r.kind.language text n) ∧
      (r.kind = .endOfInput → n = if text = [] then 1 else 0)) ∧
    ∃ lexemes stuck, (∀ lexemes' stuck', Cuts 0 file.contents lexemes' stuck' ↔ lexemes' = lexemes ∧ stuck' = stuck) ∧
      match stuck with
      | some i => i < file.length ∧ file.tokens = .error (.refused ⟨.ofLength i 1, .unknownText⟩)
      | none => ∃ tokens, file.tokens = .ok (tokens ++ [⟨.endOfInput, .ofLength file.length 0, ""⟩]) ∧
        List.Forall₂ Lexeme.Retags (lexemes.filter fun l => l.kind ≠ .blank ∧ l.kind ≠ .comment) tokens := by
  refine ⟨fun r hr text => ?_, ?_⟩
  · rcases Token.mem_rules.mp hr with hr | rfl
    · obtain ⟨n, hn, hlongest⟩ := Token.measures_rule hr text
      exact ⟨n, hn, fun _ => hlongest, fun hend => absurd hend (Token.innerRules_inside hr).2⟩
    · refine ⟨_, rfl, fun hend => absurd rfl hend, fun _ => ?_⟩
      cases text <;> rfl
  · have hregular : ∀ r ∈ Token.rules, r.Regular := fun r hr =>
      (Token.mem_rules.mp hr).elim (fun hr => .inl (Token.innerRules_inside hr).1) fun heq => .inr (heq ▸ rfl)
    obtain ⟨all, final, hfinds⟩ := Lexer.exists_finds hregular 0 file.contents
    have htokens := tokens_of_finds hfinds
    have once {lexemes : List (Lexeme TokenKind)} {stuck : Option Nat} (hcuts : Cuts 0 file.contents lexemes stuck) :
        ∀ lexemes' stuck', Cuts 0 file.contents lexemes' stuck' ↔ lexemes' = lexemes ∧ stuck' = stuck :=
      fun lexemes' stuck' => ⟨hcuts.unique, fun heq => heq.1 ▸ heq.2 ▸ hcuts⟩
    rcases Cuts.of_finds hfinds with ⟨lexemes, hcuts, rfl, rfl⟩ | ⟨hcuts, hlt⟩
    · refine ⟨lexemes, none, once hcuts, (lexemes.filter fun l => !Token.isLayout l.kind).map Token.ofLexeme, ?_, ?_⟩
      · have hend : ¬0 + file.contents.length + 1 < file.length := by
          rw [Nat.zero_add]
          exact Nat.not_lt.mpr (Nat.le_succ _)
        rw [htokens, if_neg hend, List.filter_append, List.map_append, Nat.zero_add]
        rfl
      · have hlayout : ∀ l : Lexeme TokenKind,
            (!Token.isLayout l.kind) = decide (l.kind ≠ .blank ∧ l.kind ≠ .comment) := fun l => by simp [Token.isLayout]
        rw [List.filter_congr fun l _ => hlayout l, List.forall₂_map_right_iff, List.forall₂_same]
        exact fun l hl => Token.retags_ofLexeme (hcuts.mem_language l (List.mem_of_mem_filter hl))
    · rw [Nat.zero_add] at hlt
      exact ⟨all, some final, once hcuts, hlt, htokens.trans (if_pos hlt)⟩

end RainCheck

import Mathlib.Data.List.TakeWhile
import RainCheck.Number.Literal
import RainCheck.Proofs.CharacterClasses

/-!
# Literals of files

What the tokens of a file write, if they are numbers.
* The text of an integer is a digit with digits and underscores behind it (`Token.isInteger`).  It
  writes a natural number (`Literal.integer?_of_isInteger`), and every natural number is written so
  (`Token.exists_isInteger`).
* Two such texts with a point between them write a fraction (`Literal.float?_of_isInteger`).
-/

namespace RainCheck

namespace Token

/-- A digit or an underscore. -/
def numberCharacter : Scanner := .firstOf [digit, .exactly ['_']]

/-- Whether characters are a digit and then digits and underscores. -/
def isInteger (text : List Char) : Bool := digit.leadBy numberCharacter text

variable {text rest : List Char}

theorem run_integer (htext : isInteger text = true) (hrest : numberCharacter.EndsBefore rest) :
    integer.run (text ++ rest) = .ok text.length :=
  Scanner.run_leadBy (by decide) (by decide) htext hrest

theorem isInteger_of_run {n : Nat} (hrun : integer.run text = .ok n) (hn : 0 < n) : isInteger (text.take n) = true :=
  Scanner.leadBy_of_run (by decide) (by decide) (by decide) hrun hn

theorem length_pos_of_isInteger (htext : isInteger text = true) : 0 < text.length := by
  cases text with
  | nil => cases htext
  | cons c cs => exact Nat.succ_pos _

private theorem startsWith_digit_eq (c : Char) : digit.startsWith c = c.isDigit := by
  simp [digit, Scanner.startsWith, Char.isDigit, Char.le_def]

/-- The first character of an integer is a digit, and without underscores digits are left. -/
private theorem isInteger_cons {c : Char} (htext : isInteger (c :: text) = true) :
    c.isDigit = true ∧ (Literal.characters text).all Char.isDigit = true := by
  obtain ⟨hc, hcs⟩ := Bool.and_eq_true_iff.mp htext
  refine ⟨startsWith_digit_eq c ▸ hc, List.all_eq_true.mpr fun d hd => ?_⟩
  obtain ⟨hd, hplain⟩ := List.mem_filter.mp hd
  have hclass := List.all_eq_true.mp hcs d hd
  simp only [numberCharacter, Scanner.startsWith, Scanner.someStartsWith, startsWith_digit_eq] at hclass
  have hne : '_' ≠ d := fun heq => by simp [← heq] at hplain
  simpa [hne] using hclass

end Token

namespace Literal

/-- The number written by an integer. -/
def numberOf (text : List Char) : Nat := valueOf 10 (characters text)

variable {text whole places : List Char} {c : Char}

private theorem digit_ne (hc : c.isDigit = true) {d : Char} (hd : d.isDigit = false) : c ≠ d := by
  rintro rfl
  exact absurd hc (by simp [hd])

private theorem toLower_of_digit (hc : c.isDigit = true) : c.toLower = c := by
  have hnine : c.val.toNat ≤ 57 := by
    simp only [Char.isDigit, Bool.and_eq_true, decide_eq_true_eq, UInt32.le_iff_toNat_le] at hc
    exact hc.2
  refine dif_neg fun hletter => ?_
  have hupper : 65 ≤ c.val.toNat := UInt32.le_iff_toNat_le.mp hletter.1
  omega

private theorem characters_append (xs ys : List Char) : characters (xs ++ ys) = characters xs ++ characters ys :=
  List.filter_append ..

private theorem characters_cons (hc : c ≠ '_') (cs : List Char) : characters (c :: cs) = c :: characters cs :=
  List.filter_cons_of_pos (by simpa using hc)

/-- Without underscores an integer consists of digits, and there is one. -/
private theorem exists_characters (h : Token.isInteger text = true) :
    ∃ c cs, characters text = c :: cs ∧ c.isDigit = true ∧ cs.all Char.isDigit = true := by
  cases text with
  | nil => cases h
  | cons c cs =>
    obtain ⟨hc, hcs⟩ := Token.isInteger_cons h
    exact ⟨c, characters cs, characters_cons (digit_ne hc rfl) cs, hc, hcs⟩

/-- In front of a digit there is no sign. -/
private theorem sign_of_digit (hc : c.isDigit = true) (cs : List Char) : sign (c :: cs) = (false, c :: cs) := by
  have hminus : c ≠ '-' := digit_ne hc rfl
  have hplus : c ≠ '+' := digit_ne hc rfl
  unfold sign
  split <;> simp_all

/-- An integer writes a natural number. -/
theorem integer?_of_isInteger (h : Token.isInteger text = true) : integer? text = some (numberOf text : Int) := by
  obtain ⟨c, cs, heq, hc, hcs⟩ := exists_characters h
  have hnatural : isNatural (c :: cs) = true := by simp [isNatural, hc, hcs]
  rw [integer?, numberOf, heq, sign_of_digit hc]
  simp only [hnatural, if_true, Bool.false_eq_true, if_false]

/-- A 32-bit integer has the value that its text writes. -/
theorem int32?_eq_some {v : Int32} : int32? text = some v ↔ integer? text = some v.toInt := by
  rw [int32?]
  constructor
  · intro h
    obtain ⟨n, hn, hv⟩ := Option.bind_eq_some_iff.mp h
    split at hv
    · rename_i hrange
      rw [hn, ← Option.some.inj hv, Int32.toInt_ofInt_of_le hrange.1 (Int.lt_add_one_of_le hrange.2)]
    · cases hv
  · intro h
    rw [h, Option.bind_some, if_pos ⟨v.minValue_le_toInt, v.toInt_le⟩, Int32.ofInt_toInt]

private theorem significand_of_digits {w p : List Char} (hw : w.all Char.isDigit = true)
    (hp : p.all Char.isDigit = true) :
    significand Char.isDigit (w ++ '.' :: p) = (w, p, []) := by
  rw [List.all_eq_true] at hw hp
  have hdrop : (w ++ '.' :: p).dropWhile Char.isDigit = '.' :: p := by
    rw [List.dropWhile_append_of_pos hw]
    rfl
  have htake : (w ++ '.' :: p).takeWhile Char.isDigit = w := by
    rw [List.takeWhile_append_of_pos hw]
    simp
  rw [significand, hdrop, htake]
  simp only [List.takeWhile_eq_self_iff.mpr hp, List.dropWhile_eq_nil_iff.mpr hp]

/-- Behind its first digit a hexadecimal number has a letter. -/
private theorem fraction?_eq_decimal? {d : Char} {cs : List Char} (hx : d ≠ 'x') (hX : d ≠ 'X') :
    fraction? (c :: d :: cs) = decimal? (c :: d :: cs) := by
  unfold fraction?
  split <;> simp_all

private theorem fraction?_of_digits {w p : List Char} (hc : c.isDigit = true) (hw : w.all Char.isDigit = true)
    (hp : p.all Char.isDigit = true) :
    fraction? (c :: w ++ '.' :: p) = some (valueOf 10 (c :: w ++ p), Nat.pow 10 p.length) := by
  have hall : (c :: w).all Char.isDigit = true := by rw [List.all_cons, hc, hw, Bool.and_self]
  have hdecimal : fraction? (c :: w ++ '.' :: p) = decimal? (c :: w ++ '.' :: p) := by
    cases w with
    | nil => exact fraction?_eq_decimal? (by decide) (by decide)
    | cons d w =>
      have hd : d.isDigit = true := (Bool.and_eq_true_iff.mp hw).1
      exact fraction?_eq_decimal? (digit_ne hd rfl) (digit_ne hd rfl)
  rw [hdecimal, decimal?, significand_of_digits hall hp]
  simp [exponent?]

/-- Two integers with a point between them write the double nearest to a fraction. -/
theorem float?_of_isInteger (hwhole : Token.isInteger whole = true) (hplaces : Token.isInteger places = true) :
    float? (whole ++ '.' :: places) =
      Double.nearest? (numberOf (whole ++ places)) (Nat.pow 10 (characters places).length) := by
  obtain ⟨c, w, hw, hc, hwall⟩ := exists_characters hwhole
  obtain ⟨d, p, hp, hd, hpall⟩ := exists_characters hplaces
  have hcharacters : characters (whole ++ '.' :: places) = c :: (w ++ '.' :: d :: p) := by
    rw [characters_append, characters_cons (by decide), hw, hp, List.cons_append]
  have hfraction := fraction?_of_digits (p := d :: p) hc hwall (by rw [List.all_cons, hd, hpall, Bool.and_self])
  rw [List.cons_append] at hfraction
  have hlower : c.toLower = c := toLower_of_digit hc
  -- no word begins with a digit
  have hword {word : List Char} {e : Char} (hhead : word.head? = some e) (he : e.isDigit = false) :
      (c :: (w ++ '.' :: d :: p)).map Char.toLower ≠ word := by
    rintro rfl
    rw [List.map_cons, hlower] at hhead
    exact digit_ne hc he (Option.some.inj hhead)
  have hspecial : (c :: (w ++ '.' :: d :: p)).map Char.toLower ∉ ["inf".toList, "infinity".toList] := by
    simp only [List.mem_cons, List.not_mem_nil, or_false, not_or]
    exact ⟨hword (e := 'i') rfl rfl, hword (e := 'i') rfl rfl⟩
  rw [float?, hcharacters, sign_of_digit hc]
  dsimp only
  rw [if_neg (hword (e := 'n') rfl rfl), if_neg hspecial, hfraction, numberOf, characters_append, hw, hp]
  simp

/-! ### Every number is written -/

private theorem valueOf_snoc (base : Nat) (digits : List Char) (c : Char) :
    valueOf base (digits ++ [c]) = base * valueOf base digits + digitValue c := by
  rw [valueOf, List.foldl_append, List.foldl_cons, List.foldl_nil, valueOf]

end Literal

/-- Every natural number is written by digits. -/
theorem Token.exists_isInteger (n : Nat) : ∃ text, isInteger text = true ∧ Literal.numberOf text = n := by
  have hdigit :
      ∀ d < 10, digit.startsWith (Nat.digitChar d) = true ∧ numberCharacter.startsWith (Nat.digitChar d) = true ∧
      Nat.digitChar d ≠ '_' ∧ Literal.digitValue (Nat.digitChar d) = d := by
    decide
  induction n using Nat.strongRecOn with
  | ind n ih =>
    by_cases hn : n < 10
    · obtain ⟨hdigit, -, hplain, hvalue⟩ := hdigit n hn
      refine ⟨[Nat.digitChar n], by simp [isInteger, Scanner.leadBy, hdigit], ?_⟩
      rw [Literal.numberOf, Literal.characters_cons hplain]
      simp [Literal.characters, Literal.valueOf, hvalue]
    · obtain ⟨text, htext, hnumber⟩ := ih (n / 10) (Nat.div_lt_self (by omega) (by omega))
      obtain ⟨-, hlast, hplain, hvalue⟩ := hdigit (n % 10) (Nat.mod_lt n (by omega))
      refine ⟨text ++ [Nat.digitChar (n % 10)], ?_, ?_⟩
      · cases text with
        | nil => cases htext
        | cons c cs =>
          have hall := Bool.and_eq_true_iff.mp htext
          simp [isInteger, Scanner.leadBy, hall.1, hlast]
          simpa using hall.2
      · rw [Literal.numberOf, Literal.characters_append, Literal.characters_cons hplain,
          show Literal.characters [] = [] from rfl, Literal.valueOf_snoc, hvalue]
        rw [Literal.numberOf] at hnumber
        omega

end RainCheck

import RainCheck.Proofs.TokenStream

/-!
# Character classes

What a scanner matches, told by single characters.
* What can stand at the start of a match is told by its first character (`Scanner.startsWith`).
* Characters of a class match as far as they go (`Scanner.run_many`), and so does one character of a class in front of
  those of another one (`Scanner.run_leadBy`).
-/

namespace RainCheck

/-! ### First characters -/

namespace Scanner

mutual

/-- Whether a match of a scanner may start with a character. -/
def startsWith (c : Char) : Scanner → Bool
  | .firstOf alternatives => someStartsWith c alternatives
  | .exactly characters => characters.head? = some c
  | .within lowest highest => lowest ≤ c && c ≤ highest
  | .not _ => true
  | .many scanner => scanner.startsWith c
  | .endOfInput => false
  | .inOrder parts => firstStartsWith c parts
  | .inOrderThen parts _ => firstStartsWith c parts

/-- Whether a match of one of some scanners may start with a character. -/
def someStartsWith (c : Char) : List Scanner → Bool
  | [] => false
  | s :: rest => s.startsWith c || someStartsWith c rest

/-- Whether a match of the first one of some scanners may start with a character. -/
def firstStartsWith (c : Char) : List Scanner → Bool
  | [] => false
  | s :: _ => s.startsWith c

end

variable {c : Char} {text rest : List Char}

mutual

/-- A scanner matches nothing of a text with another first character. -/
theorem run_eq_zero : (s : Scanner) → s.startsWith c = false → s.run (c :: text) = .ok 0
  | .firstOf alternatives, h => by
    rw [run]
    exact runFirst_eq_zero alternatives h
  | .exactly characters, h => by
    rw [run]
    cases characters with
    | nil => rfl
    | cons d characters =>
      have hne : d ≠ c := by simpa [startsWith] using h
      simp [List.isPrefixOf, hne]
  | .within lowest highest, h => by
    rw [startsWith] at h
    simp only [run, h, Bool.false_eq_true, if_false]
  | .many scanner, h => by
    rw [run, repeated, run_eq_zero scanner h]
    rfl
  | .endOfInput, _ => rfl
  | .inOrder parts, h => by
    rw [run]
    exact runAll_eq_zero parts h
  | .inOrderThen parts last, h => by
    rw [run, runAll_eq_zero parts h]
    rfl

private theorem runFirst_eq_zero : (ss : List Scanner) → someStartsWith c ss = false → runFirst ss (c :: text) = .ok 0
  | [], _ => rfl
  | s :: rest, h => by
    rw [someStartsWith, Bool.or_eq_false_iff] at h
    rw [runFirst, run_eq_zero s h.1]
    exact runFirst_eq_zero rest h.2

private theorem runAll_eq_zero : (ss : List Scanner) → firstStartsWith c ss = false → runAll ss 0 (c :: text) = .ok 0
  | [], _ => rfl
  | s :: rest, h => by
    rw [runAll, behind, ok_bind, run_eq_zero s h]
    rfl

end

/-! ### Classes of characters -/

mutual

/-- Whether a scanner matches single characters. -/
def isSingle : Scanner → Bool
  | .within _ _ => true
  | .exactly [_] => true
  | .firstOf alternatives => allSingle alternatives
  | _ => false

/-- Whether all of some scanners match single characters. -/
def allSingle : List Scanner → Bool
  | [] => true
  | s :: rest => s.isSingle && allSingle rest

end

mutual

private theorem run_single :
    (s : Scanner) → s.isSingle = true → s.run (c :: text) = .ok (if s.startsWith c then 1 else 0)
  | .within lowest highest, _ => rfl
  | .exactly [d], _ => by
    rw [run, startsWith]
    by_cases hd : d = c <;> simp [List.isPrefixOf, hd]
  | .firstOf alternatives, h => by
    rw [run, startsWith]
    exact runFirst_single alternatives h

private theorem runFirst_single : (ss : List Scanner) → allSingle ss = true →
    runFirst ss (c :: text) = .ok (if someStartsWith c ss then 1 else 0)
  | [], _ => rfl
  | s :: rest, h => by
    rw [allSingle, Bool.and_eq_true] at h
    rw [runFirst, run_single s h.1, someStartsWith]
    cases s.startsWith c with
    | true => rfl
    | false => exact runFirst_single rest h.2

end

/-- A text does not go on with a character of a class. -/
def EndsBefore (s : Scanner) (rest : List Char) : Prop := ∀ c, rest.head? = some c → s.startsWith c = false

theorem endsBefore_nil (s : Scanner) : s.EndsBefore [] := by
  rintro _ ⟨⟩

/-- Characters of a class match as far as they go. -/
theorem run_many {s : Scanner} (hs : s.isSingle = true) (htext : ∀ c ∈ text, s.startsWith c = true)
    (hrest : s.EndsBefore rest) : (many s).run (text ++ rest) = .ok text.length := by
  rw [run]
  induction text with
  | nil =>
    cases rest with
    | nil => rfl
    | cons c rest =>
      rw [List.nil_append, repeated, run_single s hs, hrest c rfl]
      rfl
  | cons c text ih =>
    rw [List.cons_append, repeated, run_single s hs, htext c List.mem_cons_self]
    have hbehind := ih fun d hd => htext d (List.mem_cons_of_mem _ hd)
    simp only [if_true, ok_bind, Nat.one_ne_zero, if_false, Nat.sub_self, hbehind, List.length_cons, Nat.add_comm]
    rfl

/-- What is matched of a class are characters of the class. -/
theorem run_many_inv {s : Scanner} (hs : s.isSingle = true) {n : Nat} (hrun : (many s).run text = .ok n) :
    ∀ c ∈ text.take n, s.startsWith c = true := by
  rw [run] at hrun
  induction text generalizing n with
  | nil => simp
  | cons c text ih =>
    rw [repeated, run_single s hs] at hrun
    cases hc : s.startsWith c with
    | false =>
      rw [hc] at hrun
      cases hrun
      simp
    | true =>
      rw [hc] at hrun
      simp only [if_true, ok_bind, Nat.one_ne_zero, if_false, Nat.sub_self] at hrun
      cases hbehind : repeated s.run 0 text with
      | error f =>
        rw [hbehind] at hrun
        cases hrun
      | ok m =>
        rw [hbehind] at hrun
        cases hrun
        rw [Nat.add_comm, List.take_succ_cons]
        exact List.forall_mem_cons.mpr ⟨hc, ih hbehind⟩

/-- One character of a class and then characters of another one. -/
def leadBy (head tail : Scanner) : List Char → Bool
  | [] => false
  | c :: cs => head.startsWith c && cs.all fun d => tail.startsWith d

section

variable {head tail : Scanner} (hhead : head.isSingle = true) (htail : tail.isSingle = true)

include hhead htail

theorem run_leadBy (htext : leadBy head tail text = true) (hrest : tail.EndsBefore rest) :
    (inOrderThen [head] (.many tail)).run (text ++ rest) = .ok text.length := by
  cases text with
  | nil => cases htext
  | cons c cs =>
    obtain ⟨hc, hcs⟩ : head.startsWith c = true ∧ ∀ d ∈ cs, tail.startsWith d = true := by simpa [leadBy] using htext
    have hfirst : head.run (c :: (cs ++ rest)) = .ok 1 := by rw [run_single _ hhead, hc, if_pos rfl]
    have hbehind : (many tail).run (cs ++ rest) = .ok cs.length := run_many htail hcs hrest
    rw [run, List.cons_append, runAll, behind, ok_bind, hfirst]
    simp only [ok_bind, Nat.one_ne_zero, if_false, runAll, Nat.zero_add, behind, hbehind]
    rw [List.length_cons, Nat.add_comm]
    rfl

theorem leadBy_of_run (hinside : head.staysInside = true) {n : Nat}
    (hrun : (inOrderThen [head] (.many tail)).run text = .ok n) (hn : 0 < n) :
    leadBy head tail (text.take n) = true := by
  cases text with
  | nil =>
    obtain ⟨m, hm, hle⟩ := run_le head hinside []
    have hzero : m = 0 := by simpa using hle
    rw [run, runAll, behind, ok_bind, hm, hzero] at hrun
    cases hrun
    exact absurd hn (Nat.lt_irrefl 0)
  | cons c text =>
    rw [run, runAll, behind, ok_bind, run_single _ hhead] at hrun
    cases hc : head.startsWith c with
    | false =>
      rw [hc] at hrun
      cases hrun
      exact absurd hn (Nat.lt_irrefl 0)
    | true =>
      rw [hc] at hrun
      simp only [if_true, ok_bind, Nat.one_ne_zero, if_false, runAll, Nat.zero_add, behind] at hrun
      cases hbehind : (many tail).run text with
      | error f =>
        rw [hbehind] at hrun
        cases hrun
      | ok m =>
        rw [hbehind] at hrun
        cases hrun
        rw [Nat.add_comm, List.take_succ_cons]
        rw [leadBy, hc, Bool.true_and, List.all_eq_true]
        exact run_many_inv htail hbehind

end

end Scanner

end RainCheck

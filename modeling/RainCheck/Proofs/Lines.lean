import Mathlib.Tactic.Common
import RainCheck.Source.File

/-!
# Lines of a file

What a line of a file is (`SourceFile.Divides`), and that both views of the lines give this.
* Every line that a file is split into, and every line around a position of it, is one of its lines.
* A position of a file is in one line only; its newline counts as the end of the line.
* So a position inside the text has the same line in both views.
* Behind the text both views end with the same line, unless the text ends with a newline (`lineAt_among_lines`).
-/

namespace RainCheck

namespace SourceFile

/-- A file is divided into a line and what stands in front of it and behind it. -/
structure Divides (f : SourceFile) (before : List Char) (l : Line) (after : List Char) : Prop where
  contents : f.contents = before ++ (l.text ++ after)
  start : l.start = before.length
  number : l.number = before.count '\n' + 1
  /-- A line starts behind a newline or at the start of the file. -/
  opens : ∀ c, before.getLast? = some c → c = '\n'
  inner : '\n' ∉ l.text
  /-- A line ends at a newline or at the end of the file. -/
  closes : ∀ c, after.head? = some c → c = '\n'

/-- A line of a file. -/
def HasLine (f : SourceFile) (l : Line) : Prop := ∃ before after, f.Divides before l after

end SourceFile

/-- A position is in a line or at its end. -/
def Line.Reaches (l : Line) (p : Nat) : Prop := l.start ≤ p ∧ p ≤ l.start + l.length

namespace SourceFile

variable {f : SourceFile} {l l' : Line} {before before' after after' done rest : List Char} {number start p : Nat}

/-! ### One line -/

private theorem takeWhile_line {text : List Char} (hinner : '\n' ∉ text)
    (hcloses : ∀ c, after.head? = some c → c = '\n') :
    (text ++ after).takeWhile (· != '\n') = text := by
  have hall : ∀ c ∈ text, (c != '\n') = true := fun c hc => bne_iff_ne.mpr fun heq => hinner (heq ▸ hc)
  rw [List.takeWhile_append_of_pos hall]
  cases after with
  | nil => exact List.append_nil text
  | cons c after =>
    obtain rfl := hcloses c rfl
    simp

namespace Divides

/-- Of two lines that reach a position the second one does not start behind the first one. -/
private theorem eq_of_le (h : f.Divides before l after) (h' : f.Divides before' l' after') (hp : l.Reaches p)
    (hp' : l'.Reaches p) (hle : before.length ≤ before'.length) : l = l' := by
  obtain ⟨mid, rfl⟩ : before <+: before' :=
    List.prefix_of_prefix_length_le ⟨_, h.contents.symm⟩ ⟨_, h'.contents.symm⟩ hle
  have hrest : l.text ++ after = mid ++ (l'.text ++ after') := by
    refine (List.append_right_inj before).mp ?_
    rw [← h.contents, h'.contents, List.append_assoc]
  -- What is between the starts belongs to the first line, in which there is no newline.
  have hmid : mid <+: l.text := by
    refine List.prefix_of_prefix_length_le ⟨_, hrest.symm⟩ (List.prefix_append _ _) ?_
    have hstart := h.start
    have hstart' := h'.start
    rw [List.length_append] at hstart'
    have hlast := hp.2
    have hfirst := hp'.1
    rw [Line.length] at hlast
    omega
  have hnil : mid = [] := by
    rw [← List.getLast?_eq_none_iff]
    cases hlast : mid.getLast? with
    | none => rfl
    | some c =>
      obtain rfl : c = '\n' := h'.opens c (by rw [List.getLast?_append, hlast]; rfl)
      exact absurd (hmid.subset (List.mem_of_getLast? hlast)) h.inner
  subst hnil
  have htext : l.text = l'.text := by
    rw [← takeWhile_line h.inner h.closes, hrest, List.nil_append, takeWhile_line h'.inner h'.closes]
  have hstart : l.start = l'.start := by rw [h.start, h'.start, List.append_nil]
  have hnumber : l.number = l'.number := by rw [h.number, h'.number, List.append_nil]
  cases l
  cases l'
  simp_all

end Divides

/-- A position is reached by one line only. -/
private theorem HasLine.eq (h : f.HasLine l) (h' : f.HasLine l') (hp : l.Reaches p) (hp' : l'.Reaches p) : l = l' := by
  obtain ⟨before, after, h⟩ := h
  obtain ⟨before', after', h'⟩ := h'
  rcases Nat.le_total before.length before'.length with hle | hle
  · exact h.eq_of_le h' hp hp' hle
  · exact (h'.eq_of_le h hp' hp hle).symm

/-! ### All lines -/

/-- The lines that are split off are lines of the file. -/
private theorem hasLine_linesFrom (hcontents : f.contents = before ++ (done.reverse ++ rest))
    (hstart : start = before.length)
    (hnumber : number = before.count '\n' + 1) (hopens : ∀ c, before.getLast? = some c → c = '\n')
    (hdone : '\n' ∉ done) (hl : l ∈ linesFrom number start done rest) : f.HasLine l := by
  induction rest generalizing before number start done with
  | nil =>
    rw [linesFrom] at hl
    split at hl
    · cases hl
    · rw [List.mem_singleton.mp hl]
      exact ⟨before, [], hcontents, hstart, hnumber, hopens, by simpa using hdone, nofun⟩
  | cons c rest ih =>
    rw [linesFrom] at hl
    split at hl
    · rename_i hc
      obtain rfl := beq_iff_eq.mp hc
      rcases List.mem_cons.mp hl with rfl | hl
      · exact ⟨before, '\n' :: rest, hcontents, hstart, hnumber, hopens, by simpa using hdone, by simp⟩
      · have hnext : f.contents = (before ++ done.reverse ++ ['\n']) ++ ([].reverse ++ rest) := by simp [hcontents]
        refine ih hnext ?_ ?_ ?_ (by simp) hl
        · simp [hstart]
          omega
        · simp [hnumber, List.count_eq_zero.mpr hdone]
        · simp
    · rename_i hc
      refine ih ?_ hstart hnumber hopens ?_ hl
      · simp [hcontents]
      · rintro (_ | ⟨_, hmem⟩)
        · exact hc rfl
        · exact hdone hmem

private theorem number_of_linesFrom {k : Nat} (hl : (linesFrom number start done rest)[k]? = some l) :
    l.number = number + k := by
  induction rest generalizing number start done k with
  | nil =>
    rw [linesFrom] at hl
    split at hl
    · cases hl
    · cases k with
      | zero =>
        cases hl
        rfl
      | succ k => cases hl
  | cons c rest ih =>
    rw [linesFrom] at hl
    split at hl
    · cases k with
      | zero =>
        cases hl
        rfl
      | succ k =>
        rw [ih hl]
        omega
    · exact ih hl

/-- Every position inside the text is reached by a line. -/
private theorem reaches_of_linesFrom (hp : start ≤ p) (hlt : p < start + done.length + rest.length) :
    ∃ l ∈ linesFrom number start done rest, l.Reaches p := by
  induction rest generalizing number start done with
  | nil =>
    have hne : done ≠ [] := by
      rintro rfl
      simp at hlt
      omega
    rw [linesFrom, if_neg (by simpa using hne)]
    refine ⟨_, List.mem_singleton_self _, hp, ?_⟩
    simp [Line.length] at hlt ⊢
    omega
  | cons c rest ih =>
    rw [linesFrom]
    split
    · by_cases hin : p ≤ start + done.length
      · exact ⟨_, List.mem_cons_self, hp, by simpa [Line.length] using hin⟩
      · obtain ⟨l, hl, hreaches⟩ : ∃ l ∈ linesFrom (number + 1) (start + done.length + 1) [] rest, l.Reaches p :=
          ih (by omega) (by simp at hlt ⊢; omega)
        exact ⟨l, List.mem_cons_of_mem _ hl, hreaches⟩
    · exact ih hp (by simp at hlt ⊢; omega)

/-! ### The line around a position -/

private theorem hasLine_lineFrom (hcontents : f.contents = before ++ rest) (hstart : start = before.length)
    (hnumber : number = before.count '\n' + 1) (hopens : ∀ c, before.getLast? = some c → c = '\n') :
    f.HasLine (lineFrom number start rest) := by
  refine ⟨before, rest.dropWhile (· != '\n'), ?_, hstart, hnumber, hopens, fun hmem => ?_, fun c hc => ?_⟩
  · rw [hcontents, lineFrom, List.takeWhile_append_dropWhile]
  · simpa using List.all_eq_true.mp List.all_takeWhile _ hmem
  · have hhead := List.head?_dropWhile_not (· != '\n') rest
    rw [hc] at hhead
    simpa using hhead

private theorem reaches_lineFrom (hdone : '\n' ∉ done) :
    (lineFrom number start (done ++ rest)).Reaches (start + done.length) := by
  have hall : ∀ c ∈ done, (c != '\n') = true := fun c hc => bne_iff_ne.mpr fun heq => hdone (heq ▸ hc)
  refine ⟨Nat.le_add_right start done.length, Nat.add_le_add_left ?_ start⟩
  rw [lineFrom, Line.length, List.takeWhile_append_of_pos hall, List.length_append]
  exact Nat.le_add_right _ _

/-- The line that is met at a position is a line of the file that reaches the position. -/
private theorem hasLine_lineAtFrom {position ahead : Nat} (hcontents : f.contents = before ++ (done ++ rest))
    (hstart : start = before.length) (hnumber : number = before.count '\n' + 1)
    (hopens : ∀ c, before.getLast? = some c → c = '\n') (hdone : '\n' ∉ done)
    (hposition : position = start + done.length) (hahead : ahead ≤ rest.length) :
    f.HasLine (lineAtFrom number start position (done ++ rest) ahead rest) ∧
      (lineAtFrom number start position (done ++ rest) ahead rest).Reaches (position + ahead) := by
  induction rest generalizing before number start position done ahead with
  | nil =>
    obtain rfl : ahead = 0 := Nat.le_zero.mp hahead
    rw [lineAtFrom, hposition]
    exact ⟨hasLine_lineFrom hcontents hstart hnumber hopens, reaches_lineFrom hdone⟩
  | cons c rest ih =>
    cases ahead with
    | zero =>
      rw [lineAtFrom, hposition]
      exact ⟨hasLine_lineFrom hcontents hstart hnumber hopens, reaches_lineFrom hdone⟩
    | succ ahead =>
      rw [lineAtFrom, show position + (ahead + 1) = position + 1 + ahead by omega]
      split
      · rename_i hc
        obtain rfl := beq_iff_eq.mp hc
        have hnext : f.contents = (before ++ done ++ ['\n']) ++ ([] ++ rest) := by simp [hcontents]
        refine ih hnext ?_ ?_ (by simp) (by simp) rfl (Nat.le_of_succ_le_succ hahead)
        · simp [hposition, hstart]
          omega
        · simp [hnumber, List.count_eq_zero.mpr hdone]
      · rename_i hc
        have hnext : f.contents = before ++ ((done ++ [c]) ++ rest) := by simp [hcontents]
        have hdone' : '\n' ∉ done ++ [c] := by
          simp only [List.mem_append, List.mem_singleton, not_or]
          exact ⟨hdone, fun heq => hc (beq_iff_eq.mpr heq.symm)⟩
        rw [List.append_cons]
        refine ih hnext hstart hnumber hopens hdone' ?_ (Nat.le_of_succ_le_succ hahead)
        simp [hposition]
        omega

/-! ### Both views -/

/-- The lines of a file are lines of it, numbered in their order. -/
theorem hasLine_of_lines {k : Nat} (hl : f.lines[k]? = some l) : f.HasLine l ∧ l.number = k + 1 := by
  have hcontents : f.contents = [] ++ ([].reverse ++ f.contents) := rfl
  refine ⟨hasLine_linesFrom hcontents rfl rfl nofun (by nofun) (List.mem_of_getElem? hl), ?_⟩
  rw [number_of_linesFrom hl, Nat.add_comm]

/-- The line around a position reaches it. -/
theorem hasLine_lineAt (hp : p ≤ f.length) : f.HasLine (f.lineAt p) ∧ (f.lineAt p).Reaches p := by
  have hcontents : f.contents = [] ++ ([] ++ f.contents) := rfl
  have hline : f.HasLine (lineAtFrom 1 0 0 f.contents p f.contents) ∧
      (lineAtFrom 1 0 0 f.contents p f.contents).Reaches (0 + p) :=
    hasLine_lineAtFrom hcontents rfl rfl nofun List.not_mem_nil rfl hp
  rw [Nat.zero_add] at hline
  rw [lineAt, if_neg (Int.not_lt.mpr (Int.natCast_nonneg p)), Int.toNat_natCast]
  exact hline

/-- A line that reaches a position is the line around it. -/
theorem HasLine.lineAt_eq (h : f.HasLine l) (hreaches : l.Reaches p) (hp : p ≤ f.length) : f.lineAt p = l :=
  (hasLine_lineAt hp).1.eq h (hasLine_lineAt hp).2 hreaches

/-- The line around a position inside the text is one of the lines, at its number. -/
theorem lines_lineAt (hp : p < f.length) : f.lines[(f.lineAt p).number - 1]? = some (f.lineAt p) := by
  obtain ⟨l, hl, hreaches⟩ : ∃ l ∈ f.lines, l.Reaches p :=
    reaches_of_linesFrom (Nat.zero_le p) (by simpa [length] using hp)
  obtain ⟨k, hk⟩ := List.getElem?_of_mem hl
  obtain ⟨hline, hnumber⟩ := hasLine_of_lines hk
  rw [hline.lineAt_eq hreaches (Nat.le_of_lt hp), hnumber]
  exact hk

/-! ### Behind the text -/

/-- A position behind the text has the line of the end of the text. -/
private theorem lineAtFrom_end {position ahead : Nat} {line : List Char} (hahead : rest.length ≤ ahead) :
    lineAtFrom number start position line ahead rest = lineAtFrom number start position line rest.length rest := by
  induction rest generalizing number start position line ahead with
  | nil => cases ahead <;> rfl
  | cons c rest ih =>
    obtain ⟨ahead, rfl⟩ : ∃ k, ahead = k + 1 := ⟨ahead - 1, by simp at hahead; omega⟩
    have hrest : rest.length ≤ ahead := by simpa using hahead
    rw [List.length_cons, lineAtFrom, lineAtFrom]
    split
    · exact ih hrest
    · exact ih hrest

/--
The lines that are split off are those that end at a newline and then the line that is met at the
end of the text, unless this line is empty.
-/
theorem linesFrom_eq_append {last : Line} (hdone : '\n' ∉ done)
    (hlast : lineAtFrom number start (start + done.length) (done.reverse ++ rest) rest.length rest = last) :
    ∃ closed, linesFrom number start done rest = closed ++ (if last.text = [] then [] else [last]) ∧
      last.number = number + closed.length := by
  induction rest generalizing number start done with
  | nil =>
    have hline : (done.reverse ++ []).takeWhile (· != '\n') = done.reverse :=
      takeWhile_line (by simpa using hdone) (by simp)
    rw [lineAtFrom.eq_def, List.length_nil, lineFrom, hline] at hlast
    subst hlast
    refine ⟨[], ?_, rfl⟩
    rw [linesFrom]
    cases done <;> simp
  | cons c rest ih =>
    rw [List.length_cons, lineAtFrom] at hlast
    rw [linesFrom]
    split at hlast
    · -- the newline closes the line of what is done
      rename_i hc
      obtain ⟨closed, hlines, hnumber⟩ := @ih [] (number + 1) (start + done.length + 1) List.not_mem_nil hlast
      refine ⟨{ number, start, text := done.reverse } :: closed, ?_, ?_⟩
      · rw [if_pos hc, hlines]
        rfl
      · rw [hnumber, List.length_cons]
        omega
    · rename_i hc
      have hdone' : '\n' ∉ c :: done := by
        simp only [List.mem_cons, not_or]
        exact ⟨fun heq => hc (beq_iff_eq.mpr heq.symm), hdone⟩
      rw [if_neg hc]
      exact ih hdone' (by rwa [List.reverse_cons, List.append_assoc, List.singleton_append])

/-- The line at the end of the text is empty if the text ends with a newline, and only then. -/
private theorem text_eq_nil_iff (hne : f.contents ≠ []) (h : f.HasLine l) (hreaches : l.Reaches f.length) :
    l.text = [] ↔ f.contents.getLast? = some '\n' := by
  obtain ⟨before, after, h⟩ := h
  obtain rfl : after = [] := by
    have hlen := congrArg List.length h.contents
    have hlast := hreaches.2
    rw [List.length_append, List.length_append, ← h.start] at hlen
    rw [length, Line.length] at hlast
    exact List.eq_nil_of_length_eq_zero (by omega)
  have hcontents := h.contents
  rw [List.append_nil] at hcontents
  constructor
  · intro hnil
    rw [hnil, List.append_nil] at hcontents
    obtain ⟨c, hc⟩ : ∃ c, before.getLast? = some c := Option.ne_none_iff_exists'.mp (by simpa [← hcontents] using hne)
    rw [hcontents, hc, h.opens c hc]
  · intro hlast
    by_contra htext
    obtain ⟨c, hc⟩ : ∃ c, l.text.getLast? = some c := Option.ne_none_iff_exists'.mp (by simpa using htext)
    rw [hcontents, List.getLast?_append, hc] at hlast
    obtain rfl : c = '\n' := by simpa using hlast
    exact h.inner (List.mem_of_getLast? hc)

/-- The line around a position behind the text is the one at the end, which comes last among the lines if it is one. -/
private theorem lineAt_end (hle : f.length ≤ p) :
    f.HasLine (f.lineAt p) ∧ (f.lineAt p).Reaches f.length ∧
      ∃ closed, f.lines = closed ++ (if (f.lineAt p).text = [] then [] else [f.lineAt p]) ∧
        (f.lineAt p).number = 1 + closed.length := by
  have hwalk : f.lineAt p = lineAtFrom 1 0 0 f.contents f.contents.length f.contents := by
    rw [lineAt, if_neg (Int.not_lt.mpr (Int.natCast_nonneg p)), Int.toNat_natCast]
    exact lineAtFrom_end hle
  have hend : f.lineAt p = f.lineAt f.length := by
    rw [hwalk, lineAt, if_neg (Int.not_lt.mpr (Int.natCast_nonneg f.length)), Int.toNat_natCast]
    rfl
  obtain ⟨hline, hreaches⟩ := hasLine_lineAt (Nat.le_refl f.length)
  rw [← hend] at hline hreaches
  exact ⟨hline, hreaches, linesFrom_eq_append List.not_mem_nil hwalk.symm⟩

/--
Where the line around a position stands among the lines of a file that is not empty.  Around a
position inside the text it is the line that reaches the position.  Behind the text it is the last
line, unless the text ends with a newline: then it is the empty line behind the newline, which is
none of the lines.
-/
theorem lineAt_among_lines (hne : f.contents ≠ []) {s : Span} (hs : 0 ≤ s.start) :
    (s.start < f.length → ∀ l, f.lineAt s.start = l ↔ l ∈ f.lines ∧ l.Reaches s.start.toNat) ∧
    (f.length ≤ s.start → f.contents.getLast? ≠ some '\n' → f.lines.getLast? = some (f.lineAt s.start)) ∧
    (f.length ≤ s.start → f.contents.getLast? = some '\n' →
      f.lineAt s.start = { number := f.lines.length + 1, start := f.length, text := [] }) := by
  obtain ⟨p, hp⟩ := Int.eq_ofNat_of_zero_le hs
  rw [hp]
  refine ⟨fun hlt l => ⟨?_, ?_⟩, fun hle hlast => ?_, fun hle hlast => ?_⟩
  · rintro rfl
    have hin : p < f.length := Int.ofNat_lt.mp hlt
    exact ⟨List.mem_of_getElem? (lines_lineAt hin), (hasLine_lineAt (Nat.le_of_lt hin)).2⟩
  · rintro ⟨hl, hreaches⟩
    obtain ⟨k, hk⟩ := List.getElem?_of_mem hl
    exact (hasLine_of_lines hk).1.lineAt_eq hreaches (Nat.le_of_lt (Int.ofNat_lt.mp hlt))
  · obtain ⟨hline, hreaches, closed, hlines, -⟩ := lineAt_end (Int.ofNat_le.mp hle)
    rw [hlines, if_neg fun hnil => hlast ((text_eq_nil_iff hne hline hreaches).mp hnil)]
    exact List.getLast?_concat
  · obtain ⟨hline, hreaches, closed, hlines, hnumber⟩ := lineAt_end (Int.ofNat_le.mp hle)
    have hnil := (text_eq_nil_iff hne hline hreaches).mpr hlast
    rw [if_pos hnil, List.append_nil] at hlines
    rw [hlines]
    -- an empty line that reaches the end starts there
    generalize f.lineAt p = l at hnil hreaches hnumber
    obtain ⟨number, start, text⟩ := l
    obtain rfl : text = [] := hnil
    obtain rfl : start = f.length := Nat.le_antisymm hreaches.1 hreaches.2
    obtain rfl : number = 1 + closed.length := hnumber
    rw [Nat.add_comm]

/-- A position on the newline of an empty line, in a text without a newline at its end. -/
theorem lineAt_among_lines_emptyLine :
    let f : SourceFile := ⟨"test.rain", ['a', '\n', '\n', 'b']⟩
    let s : Span := ⟨2, 3, by decide⟩
    (f.contents ≠ [] ∧ 0 ≤ s.start ∧ s.start < f.length ∧ f.contents.getLast? ≠ some '\n') ∧
      f.lineAt s.start = ⟨2, 2, []⟩ ∧ ∀ l, f.lineAt s.start = l ↔ l ∈ f.lines ∧ l.Reaches s.start.toNat := by
  refine ⟨by decide, by decide, ?_⟩
  exact (lineAt_among_lines (by decide) (by decide)).1 (by decide)

/-- Behind a newline at the end of a text there is an empty line, which is not one of its lines. -/
theorem lineAt_not_mem_lines :
    ¬ ∀ (f : SourceFile) (s : Span), f.contents ≠ [] → 0 ≤ s.start → f.lineAt s.start ∈ f.lines := by
  intro h
  have hmem := h ⟨"test.rain", ['a', '\n']⟩ ⟨2, 2, by decide⟩ (by decide) (by decide)
  revert hmem
  decide

end SourceFile

end RainCheck

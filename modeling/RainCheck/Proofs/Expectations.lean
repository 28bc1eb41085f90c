import RainCheck.Expectation
import RainCheck.Proofs.Faults
import RainCheck.Proofs.Lines

/-!
# Expected problems and locations

An attribute names the place of a problem by a line and columns, a location is written as a line and a column.
* The parts of an attribute are those between the first two colons and at the first dash of the second part
  (`Expectation.readValue_eq_ok`), and what is read in them are the numbers written there.
* The columns of a line are a span in it, and the column of a position in the line leads back to the position.

So an attribute that is written for a location names this location, and what an attribute names is located where the
attribute says.
-/

namespace RainCheck

/-! ### Numbers -/

namespace Decimal

variable {text : List Char} {n : Nat} {i : Int}

private theorem le_ofDigitChars (digits : List Char) (value : Nat) : value ≤ Nat.ofDigitChars 10 digits value := by
  induction digits generalizing value with
  | nil => exact Nat.le_refl value
  | cons c digits ih =>
    have hnext : value ≤ 10 * value + (c.toNat - '0'.toNat) := by omega
    exact Nat.le_trans hnext (ih _)

/-- Digits are read as the number that they write, if it is not too large. -/
private theorem readDigits_eq {digits : List Char} {value : Nat} (hdigits : ∀ c ∈ digits, c.isDigit = true)
    (hlt : Nat.ofDigitChars 10 digits value < unsignedLimit) :
    readDigits value digits = .ok (Nat.ofDigitChars 10 digits value) := by
  induction digits generalizing value with
  | nil => rfl
  | cons c digits ih =>
    have hnext : 10 * value + (c.toNat - '0'.toNat) < unsignedLimit := Nat.lt_of_le_of_lt (le_ofDigitChars digits _) hlt
    rw [readDigits, if_pos (hdigits c List.mem_cons_self), if_pos hnext]
    exact ih (fun d hd => hdigits d (List.mem_cons_of_mem c hd)) hlt

/-- A number is read back from its digits. -/
private theorem read_toDigits (hn : n < signedLimit) : read (Nat.toDigits 10 n) = .ok (n : Int) := by
  have hdigits : ∀ c ∈ Nat.toDigits 10 n, c.isDigit = true := fun c hc =>
    Nat.isDigit_of_mem_toDigits (by decide) (by decide) hc
  have hread : readDigits 0 (Nat.toDigits 10 n) = .ok n := by
    have hlt : Nat.ofDigitChars 10 (Nat.toDigits 10 n) 0 < unsignedLimit := by
      rw [Nat.ofDigitChars_ten_toDigits]
      exact Nat.lt_trans hn (by decide)
    rw [readDigits_eq hdigits hlt, Nat.ofDigitChars_ten_toDigits]
  cases htext : Nat.toDigits 10 n with
  | nil => exact absurd htext Nat.toDigits_ne_nil
  | cons c rest =>
    rw [htext] at hdigits hread
    have hc := hdigits c List.mem_cons_self
    have hminus : c ≠ '-' := by
      rintro rfl
      cases hc
    have hplus : (c :: rest).head? ≠ some '+' := by
      rintro heq
      cases heq
      cases hc
    rw [read]
    · rw [if_neg hplus, readNatural, hread, ok_bind, if_pos hn]
      · rfl
      · simp
    · rintro digits heq
      exact hminus (List.cons.inj heq).1

/-- What is read fits into a machine word. -/
private theorem lt_of_read (h : read text = .ok i) : i < signedLimit := by
  unfold read at h
  split at h <;> obtain ⟨n, -, hn⟩ := bind_eq_ok_iff.mp h <;> split at hn <;> cases hn
  · have hnegative : -(n : Int) ≤ 0 := by omega
    exact Int.lt_of_le_of_lt hnegative (by decide)
  · rename_i hlt
    exact Int.ofNat_lt.mpr hlt

end Decimal

/-! ### Parts of a text -/

private theorem Attribute.cut?_eq_some_iff {c : Char} {text a b : List Char} :
    Attribute.cut? c text = some (a, b) ↔ text = a ++ c :: b ∧ c ∉ a := by
  have hall : ∀ {a : List Char}, c ∉ a → ∀ d ∈ a, (d != c) = true := fun ha d hd =>
    bne_iff_ne.mpr fun heq => ha (heq ▸ hd)
  unfold Attribute.cut?
  constructor
  · intro h
    have hhead := List.head?_dropWhile_not (· != c) text
    split at h
    · rename_i d behind hdrop
      cases h
      rw [hdrop] at hhead
      obtain rfl : d = c := by simpa using hhead
      refine ⟨?_, fun hmem => ?_⟩
      · rw [← hdrop, List.takeWhile_append_dropWhile]
      · simpa using List.all_eq_true.mp List.all_takeWhile _ hmem
    · cases h
  · rintro ⟨rfl, ha⟩
    rw [List.dropWhile_append_of_pos (hall ha), List.takeWhile_append_of_pos (hall ha)]
    simp

private theorem Text.trim_eq {text : List Char} (hhead : ∀ c, text.head? = some c → isBlank c = false)
    (hlast : ∀ c, text.getLast? = some c → isBlank c = false) : trim text = text := by
  have hkeep : ∀ {l : List Char}, (∀ c, l.head? = some c → isBlank c = false) → l.dropWhile isBlank = l := by
    intro l hl
    cases l with
    | nil => rfl
    | cons c l => rw [List.dropWhile_cons_of_neg (by simp [hl c rfl])]
  rw [trim, hkeep hhead, hkeep (by simpa using hlast), List.reverse_reverse]

/-! ### What an attribute says -/

namespace Expectation

variable {text contents message : List Char} {first last : Int} {c : Columns} {s : Span} {lines : List Line}

private theorem readColumns_eq_ok : readColumns text = .ok (first, last) ↔ ∃ a b, text = a ++ '-' :: b ∧ '-' ∉ a ∧
    Decimal.read a = .ok first ∧ Decimal.read b = .ok last ∧ 0 < first ∧ first ≤ last := by
  constructor
  · intro h
    unfold readColumns at h
    split at h
    · cases h
    · rename_i a b hcut
      obtain ⟨htext, ha⟩ := Attribute.cut?_eq_some_iff.mp hcut
      obtain ⟨start, hstart, h⟩ := bind_eq_ok_iff.mp h
      split at h
      · cases h
      · rename_i hpos
        obtain ⟨stop, hstop, h⟩ := bind_eq_ok_iff.mp h
        split at h
        · cases h
        · rename_i hle
          cases h
          exact ⟨a, b, htext, ha, mapError_eq_ok_iff.mp hstart, mapError_eq_ok_iff.mp hstop, Int.not_le.mp hpos,
            Int.not_lt.mp hle⟩
  · rintro ⟨a, b, rfl, ha, hfirst, hlast, hpos, hle⟩
    rw [readColumns, Attribute.cut?_eq_some_iff.mpr ⟨rfl, ha⟩]
    simp only [hfirst, hlast, Except.mapError, ok_bind, Int.not_le.mpr hpos, Int.not_lt.mpr hle]
    rfl

/-- What an attribute says is written in it, between its first two colons and the first dash there. -/
theorem readValue_eq_ok : readValue contents = .ok (c, message) ↔ ∃ line columns,
    contents = line ++ ':' :: (columns ++ ':' :: message) ∧ ':' ∉ line ∧ ':' ∉ columns ∧
    Decimal.read line = .ok c.line ∧ 0 < c.line ∧ readColumns columns = .ok (c.first, c.last) := by
  constructor
  · intro h
    unfold readValue at h
    split at h
    · cases h
    · rename_i line rest hcut
      obtain ⟨hcontents, hline⟩ := Attribute.cut?_eq_some_iff.mp hcut
      split at h
      · cases h
      · rename_i columns message hcut
        obtain ⟨hrest, hcolumns⟩ := Attribute.cut?_eq_some_iff.mp hcut
        obtain ⟨number, hnumber, h⟩ := bind_eq_ok_iff.mp h
        split at h
        · cases h
        · rename_i hpos
          obtain ⟨⟨first, last⟩, hread, h⟩ := bind_eq_ok_iff.mp h
          cases h
          exact ⟨line, columns, hrest ▸ hcontents, hline, hcolumns, mapError_eq_ok_iff.mp hnumber, Int.not_le.mp hpos,
            hread⟩
  · rintro ⟨line, columns, rfl, hline, hcolumns, hread, hpos, hspan⟩
    rw [readValue, Attribute.cut?_eq_some_iff.mpr ⟨rfl, hline⟩]
    simp only [Attribute.cut?_eq_some_iff.mpr ⟨rfl, hcolumns⟩, hread, Except.mapError, ok_bind, Int.not_le.mpr hpos,
      hspan]
    rfl

/-- The columns of an attribute are a span in a line of the file, unless they go beyond it. -/
private theorem spanOf_eq_ok : spanOf c lines = .ok s ↔ ∃ line, lines[c.line.toNat - 1]? = some line ∧
    c.first.toNat - 1 < line.length ∧ c.last.toNat - 1 ≤ line.length ∧
    s = .ofLength (line.start + (c.first.toNat - 1)) (c.last.toNat - 1 - (c.first.toNat - 1)) := by
  unfold spanOf
  split
  · rename_i hnone
    refine ⟨nofun, ?_⟩
    rintro ⟨line, hline, -⟩
    cases hnone.symm.trans hline
  · rename_i line hline
    dsimp only
    split
    · rename_i hover
      refine ⟨nofun, ?_⟩
      rintro ⟨line', hline', hfirst, hlast, -⟩
      cases hline.symm.trans hline'
      rw [Bool.or_eq_true, decide_eq_true_iff, decide_eq_true_iff] at hover
      omega
    · rename_i hin
      rw [Bool.or_eq_true, decide_eq_true_iff, decide_eq_true_iff, not_or, Nat.not_le, Nat.not_lt] at hin
      constructor
      · rintro ⟨⟩
        exact ⟨line, hline, hin.1, hin.2, rfl⟩
      · rintro ⟨line', hline', -, -, rfl⟩
        cases hline.symm.trans hline'
        rfl

end Expectation

/-! ### Columns of a line -/

namespace SourceFile

variable {f : SourceFile} {l : Line} {p : Nat}

/-- A line of a file is in the text. -/
private theorem HasLine.le_length (h : f.HasLine l) : l.start + l.length ≤ f.length := by
  obtain ⟨before, after, h⟩ := h
  have hcontents := congrArg List.length h.contents
  rw [List.length_append, List.length_append] at hcontents
  rw [h.start, length, Line.length]
  omega

/-- The number of a line is at most one more than the number of characters in front of it. -/
private theorem HasLine.number_le (h : f.HasLine l) : 0 < l.number ∧ l.number ≤ l.start + 1 := by
  obtain ⟨before, after, h⟩ := h
  rw [h.number, h.start]
  exact ⟨Nat.succ_pos _, Nat.succ_le_succ List.count_le_length⟩

/-- Text without a newline does not go beyond the line in which it starts. -/
private theorem HasLine.stop_le {q : Nat} (h : f.HasLine l) (hreaches : l.Reaches p) (hq : q ≤ f.length)
    (hinner : '\n' ∉ (f.contents.drop p).take (q - p)) : q ≤ l.start + l.length := by
  obtain ⟨before, after, h⟩ := h
  refine Nat.not_lt.mp fun hlt => hinner ?_
  have hstop := hreaches.2
  have hlast : f.contents[l.start + l.length]? = after.head? := by
    rw [h.contents, h.start, Line.length, List.getElem?_append_right (Nat.le_add_right _ _), Nat.add_sub_cancel_left,
      List.getElem?_append_right (Nat.le_refl _), Nat.sub_self, List.head?_eq_getElem?]
  cases hafter : after.head? with
  | none =>
    rw [hafter, List.getElem?_eq_none_iff] at hlast
    rw [length] at hq
    omega
  | some c =>
    obtain rfl := h.closes c hafter
    rw [hafter] at hlast
    refine List.mem_of_getElem? (i := l.start + l.length - p) ?_
    rw [List.getElem?_take_of_lt (by omega), List.getElem?_drop, Nat.add_sub_cancel' hstop]
    exact hlast

/-- The column of a position is counted from the start of its line. -/
private theorem columnAt_eq (hp : p ≤ f.length) (hword : p - (f.lineAt p).start + 1 < Decimal.signedLimit) :
    f.columnAt p = ((p - (f.lineAt p).start + 1 : Nat) : Int) := by
  have hstart := (hasLine_lineAt hp).2.1
  rw [Decimal.signedLimit] at hword
  rw [columnAt, Int.bmod_eq_of_le_mul_two] <;> omega

end SourceFile

/-! ### Attributes and locations -/

namespace Expectation

/-- The attribute that expects a problem at the location of a span. -/
def lineFor (file : SourceFile) (s : Span) (message : List Char) : List Char :=
  ("//error:" ++ toString (file.lineAt s.start).number ++ ":" ++ toString (file.columnAt s.start) ++ "-" ++
    toString (file.columnAt s.start + s.length) ++ ":").toList ++ message

variable {file : SourceFile} {contents message : List Char} {c : Columns} {e : Expectation}

/-- The value of an attribute is what stands behind its name. -/
private theorem value?_of_text {line : Line} {value : List Char} (htext : line.text = "//error:".toList ++ value)
    (hlast : ∀ c, value.getLast? = some c → Text.isBlank c = false) : Attribute.value? "error" line = some value := by
  have htrim : Text.trim line.text = line.text := by
    refine Text.trim_eq (fun c hc => ?_) fun c hc => ?_
    · obtain rfl : '/' = c := by simpa [htext] using hc
      decide
    · rw [htext, List.getLast?_append] at hc
      cases hvalue : value.getLast? with
      | none =>
        obtain rfl : ':' = c := by simpa [hvalue] using hc
        decide
      | some d =>
        obtain rfl : d = c := by simpa [hvalue] using hc
        exact hlast d hvalue
  have hstart : "//".toList ++ "error".toList ++ [':'] = "//error:".toList := by decide
  rw [Attribute.value?, htrim, htext, hstart, if_pos (List.isPrefixOf_iff_prefix.mpr (List.prefix_append _ _)),
    List.drop_left]

private theorem not_mem_toDigits {c : Char} (n : Nat) (hc : c.isDigit = false) : c ∉ Nat.toDigits 10 n := fun hmem => by
  rw [Nat.isDigit_of_mem_toDigits (by decide) (by decide) hmem] at hc
  cases hc

/-- The value of an attribute with given numbers. -/
def valueText (line first last : Nat) (message : List Char) : List Char :=
  Nat.toDigits 10 line ++ ':' :: (Nat.toDigits 10 first ++ '-' :: Nat.toDigits 10 last ++ ':' :: message)

/-- Numbers are read back from the text that they are written into. -/
private theorem readValue_valueText {line first last : Nat} (hline : 0 < line) (hfirst : 0 < first) (hle : first ≤ last)
    (hlineWord : line < Decimal.signedLimit) (hlastWord : last < Decimal.signedLimit) :
    readValue (valueText line first last message) = .ok (⟨line, first, last⟩, message) := by
  refine readValue_eq_ok.mpr ⟨_, _, rfl, not_mem_toDigits line rfl, ?_, Decimal.read_toDigits hlineWord,
    Int.natCast_pos.mpr hline, readColumns_eq_ok.mpr ⟨_, _, rfl, not_mem_toDigits first rfl,
      Decimal.read_toDigits (Nat.lt_of_le_of_lt hle hlastWord), Decimal.read_toDigits hlastWord,
      Int.natCast_pos.mpr hfirst, Int.ofNat_le.mpr hle⟩⟩
  simp [not_mem_toDigits first (c := ':') rfl, not_mem_toDigits last (c := ':') rfl]

/-- The value of an attribute ends like its message, or at a colon. -/
private theorem not_isBlank_valueText {line first last : Nat}
    (hlast : ∀ c, message.getLast? = some c → Text.isBlank c = false) :
    ∀ c, (valueText line first last message).getLast? = some c → Text.isBlank c = false := by
  have hend : (valueText line first last message).getLast? = message.getLast?.or (some ':') := by
    rw [valueText, List.getLast?_append, List.getLast?_cons, List.getLast?_append, List.getLast?_cons]
    cases message.getLast? <;> rfl
  intro c hc
  rw [hend] at hc
  cases hmessage : message.getLast? with
  | none =>
    rw [hmessage] at hc
    cases hc
    decide
  | some d =>
    rw [hmessage] at hc
    cases hc
    exact hlast c hmessage

/-- Columns inside a line are the positions behind its start, counted from one. -/
private theorem spanOf_line {lines : List Line} {l : Line} {k n : Nat}
    (hline : lines[l.number - 1]? = some l) (hn : 0 < n)
    (hle : k + n ≤ l.length) :
    spanOf ⟨l.number, (k + 1 : Nat), (k + 1 + n : Nat)⟩ lines = .ok (.ofLength (l.start + k) n) := by
  refine spanOf_eq_ok.mpr ⟨l, hline, ?_⟩
  rw [Int.toNat_natCast, Int.toNat_natCast, Nat.add_sub_cancel, Nat.add_right_comm, Nat.add_sub_cancel,
    Nat.add_sub_cancel_left]
  exact ⟨Nat.lt_of_lt_of_le (Nat.lt_add_of_pos_right hn) hle, hle, rfl⟩

/-- The attribute for a location has its numbers as the value. -/
private theorem lineFor_ofLength {p n column : Nat} (hcolumn : file.columnAt p = column) :
    lineFor file (.ofLength p n) message =
      "//error:".toList ++ valueText (file.lineAt p).number column (column + n) message := by
  have hnat : ∀ i : Nat, (toString i).toList = Nat.toDigits 10 i := fun i => String.toList_ofList
  have hint : ∀ i : Nat, (toString (i : Int)).toList = Nat.toDigits 10 i := fun i => String.toList_ofList
  have hstart : (Span.ofLength p n).start = p := rfl
  have hstop : file.columnAt p + (Span.ofLength p n).length = ((column + n : Nat) : Int) := by
    simp only [hcolumn, Span.length, Span.ofLength]
    omega
  rw [lineFor, hstart, hstop, hcolumn]
  simp only [String.toList_append, List.append_assoc, hnat, hint]
  simp [valueText]

/-- The attribute for a location names the span of this location. -/
private theorem ofValue_lineFor {s : Span} {line : Line} (hstart : 0 ≤ s.start) (hnonempty : s.start < s.stop)
    (hstop : s.stop ≤ file.length) (hinner : '\n' ∉ (file.contents.drop s.start.toNat).take s.length)
    (hword : file.length + 1 < Decimal.signedLimit)
    (hlast : ∀ c, message.getLast? = some c → Text.isBlank c = false) (hline : line.text = lineFor file s message) :
    (Attribute.value? "error" line).map (ofValue file) = some (.ok ⟨s, String.ofList message⟩) := by
  obtain ⟨p, n, hn, hle, rfl⟩ : ∃ p n, 0 < n ∧ p + n ≤ file.length ∧ s = .ofLength p n := by
    refine ⟨s.start.toNat, s.length, ?_, ?_, ?_⟩
    all_goals cases s
    all_goals simp only [Span.ofLength, Span.length, Span.mk.injEq] at *
    all_goals omega
  have hp : p < file.length := Nat.lt_of_lt_of_le (Nat.lt_add_of_pos_right hn) hle
  -- The line of the location reaches the whole span.
  obtain ⟨hl, hreaches⟩ := SourceFile.hasLine_lineAt (Nat.le_of_lt hp)
  have hlines := SourceFile.lines_lineAt hp
  have hcolumn := SourceFile.columnAt_eq (Nat.le_of_lt hp) (by omega)
  have htext := @lineFor_ofLength file message p n _ hcolumn
  generalize file.lineAt p = l at hl hreaches hlines hcolumn htext
  have hend : p + n ≤ l.start + l.length := by
    refine hl.stop_le hreaches hle ?_
    have hlength : (Span.ofLength p n).length = n := by
      simp only [Span.length, Span.ofLength]
      omega
    rw [hlength] at hinner
    rwa [Nat.add_sub_cancel_left]
  obtain ⟨k, rfl⟩ := Nat.exists_eq_add_of_le hreaches.1
  rw [Nat.add_sub_cancel_left] at htext
  have hwithin := hl.le_length
  have hnumber := hl.number_le
  have hread := @readValue_valueText message l.number (k + 1) (k + 1 + n) hnumber.1 (Nat.succ_pos k)
    (Nat.le_add_right _ n) (by omega) (by omega)
  have hspan := spanOf_line hlines hn (show k + n ≤ l.length by omega)
  rw [value?_of_text (hline.trans htext) (not_isBlank_valueText hlast), Option.map_some, ofValue, hread, ok_bind]
  dsimp only
  rw [hspan]
  rfl

/-- What an attribute names starts at its line and column, is as long as its columns are apart, and is in the line. -/
structure Locates (file : SourceFile) (c : Columns) (message : List Char) (e : Expectation) : Prop where
  line : (file.lineAt e.span.start).number = c.line
  column : file.columnAt e.span.start = c.first
  length : (e.span.length : Int) = c.last - c.first
  start : (file.lineAt e.span.start).start ≤ e.span.start
  stop : e.span.stop ≤ (file.lineAt e.span.start).start + (file.lineAt e.span.start).length
  message : e.message = String.ofList message

private theorem locates_of_ofValue (hvalue : ofValue file contents = .ok e) :
    ∃ c message, readValue contents = .ok (c, message) ∧ e.Locates file c message := by
  obtain ⟨⟨c, message⟩, hread, h⟩ := bind_eq_ok_iff.mp hvalue
  obtain ⟨s, hspan, h⟩ := bind_eq_ok_iff.mp h
  cases h
  obtain ⟨lineText, columns, -, -, -, hline, hlinePos, hcolumns⟩ := readValue_eq_ok.mp hread
  obtain ⟨a, b, -, -, hfirst, hlast, hfirstPos, hle⟩ := readColumns_eq_ok.mp hcolumns
  obtain ⟨l, hl, hstart, hstop, rfl⟩ := spanOf_eq_ok.mp hspan
  obtain ⟨hhas, hnumber⟩ := SourceFile.hasLine_of_lines hl
  have hword := Decimal.lt_of_read hfirst
  have hwithin := hhas.le_length
  have hlength : l.start + (c.first.toNat - 1) ≤ file.length := by omega
  have hlineAt : file.lineAt (l.start + (c.first.toNat - 1) : Nat) = l :=
    hhas.lineAt_eq ⟨Nat.le_add_right _ _, Nat.add_le_add_left (Nat.le_of_lt hstart) _⟩ hlength
  have hcolumn := SourceFile.columnAt_eq hlength (by rw [hlineAt]; omega)
  rw [hlineAt] at hcolumn
  refine ⟨c, message, hread, ?_, ?_, ?_, ?_, ?_, rfl⟩
  all_goals simp only [Span.ofLength, Span.length, hlineAt, hcolumn]
  all_goals omega

/--
* An attribute that is written for the location of a span inside a line expects its message at this span, as long as the
  columns of the file are machine words.
* An attribute that expects something names the location of the span at which it does.
-/
theorem attribute_names_location (file : SourceFile) :
    (∀ (s : Span) (message : List Char) (line : Line), file.length + 1 < Decimal.signedLimit → 0 ≤ s.start →
      s.start < s.stop → s.stop ≤ file.length → '\n' ∉ (file.contents.drop s.start.toNat).take s.length →
      (∀ c, message.getLast? = some c → Text.isBlank c = false) → line.text = lineFor file s message →
      (Attribute.value? "error" line).map (ofValue file) = some (.ok ⟨s, String.ofList message⟩)) ∧
    ∀ (line : Line) (e : Expectation), (Attribute.value? "error" line).map (ofValue file) = some (.ok e) →
      ∃ contents c message, Attribute.value? "error" line = some contents ∧
        readValue contents = .ok (c, message) ∧ e.Locates file c message := by
  refine ⟨fun s message line hword hstart hnonempty hstop hinner hlast hline =>
    ofValue_lineFor hstart hnonempty hstop hinner hword hlast hline, fun line e h => ?_⟩
  obtain ⟨contents, hcontents, hvalue⟩ := Option.map_eq_some_iff.mp h
  obtain ⟨c, message, hread, hlocates⟩ := locates_of_ofValue hvalue
  exact ⟨contents, c, message, hcontents, hread, hlocates⟩

/-- A file that expects a problem at its only expression. -/
def boolFile : SourceFile :=
  ⟨"test.rain", "//error:3:5-9:expected i32: found bool\nfn f() -> i32 {
    true
}\n".toList⟩

theorem attribute_names_location_boolFile : ∃ line ∈ boolFile.lines, ∃ e,
    (Attribute.value? "error" line).map (ofValue boolFile) = some (.ok e) ∧ boolFile.text e.span = .ok "true" ∧
    e.message = "expected i32: found bool" ∧ e.Locates boolFile ⟨3, 5, 9⟩ "expected i32: found bool".toList := by
  have hlast : ∀ c, "expected i32: found bool".toList.getLast? = some c → Text.isBlank c = false := fun c hc => by
    obtain rfl : 'l' = c := by simpa using hc
    decide
  have hnamed := (attribute_names_location boolFile).1 (.ofLength 59 4) "expected i32: found bool".toList
    ⟨1, 0, "//error:3:5-9:expected i32: found bool".toList⟩ (by decide +kernel) (by decide) (by decide)
    (by decide +kernel) (by decide +kernel) hlast (by decide +kernel)
  obtain ⟨contents, c, message, hvalue, hread, hlocates⟩ := (attribute_names_location boolFile).2 _ _ hnamed
  have hcontents : contents = "3:5-9:expected i32: found bool".toList :=
    Option.some.inj (hvalue.symm.trans (by decide +kernel))
  have hcolumns : (c, message) = (⟨3, 5, 9⟩, "expected i32: found bool".toList) :=
    Except.ok.inj (hread.symm.trans (by rw [hcontents]; decide +kernel))
  cases hcolumns
  exact ⟨_, by decide +kernel, _, hnamed, by decide +kernel, String.ofList_toList, hlocates⟩

end Expectation

end RainCheck

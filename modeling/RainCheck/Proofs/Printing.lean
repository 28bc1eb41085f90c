import RainCheck.Proofs.Layout
import RainCheck.Proofs.Lines
import RainCheck.Proofs.TokenClasses
import RainCheck.Report

/-!
# Printed diagnostics

Every diagnostic of a compiled file is about a part of its text (`SourceFile.Contains`), so it can be printed.
* The spans of tokens lie in the text, and each diagnostic is about text that is no token, or its span runs over tokens.
* A span starts in one line of the file, which it cuts into what stands in front of it, what it covers there, and what
  stands behind it (`Line.Cut`).
* What is printed is this line, with blanks below what stands in front of the span and carets below what it covers
  (`Diagnostic.Shows`).
-/

namespace RainCheck

/-- A span of the text of a file; it may be empty and stand at the end of the text. -/
structure SourceFile.Contains (f : SourceFile) (s : Span) : Prop where
  start : 0 ≤ s.start
  stop : s.stop ≤ f.length

/-- A span that starts in a line cuts it; what the span covers ends where the span ends, or with the line. -/
structure Line.Cut (l : Line) (s : Span) (before covered after : List Char) : Prop where
  text : l.text = before ++ (covered ++ after)
  start : (l.start + before.length : Int) = s.start
  stop : s.start + covered.length = min s.stop (l.start + l.length)

/-- The text that is printed for a diagnostic with the given line, blanks and carets, which are counted from one. -/
def Diagnostic.shown (d : Diagnostic) (file : SourceFile) (colour : Bool) (l : Line) (blanks carets : Nat) : String :=
  let marks := String.ofList (List.replicate carets '^')
  file.name ++ ":" ++ toString l.number ++ ":" ++ toString (1 + blanks) ++ "-" ++
    toString (1 + blanks + carets) ++ " " ++
    (if colour then Escape.boldText.wrap d.kind.name else d.kind.name) ++ ": " ++ d.message ++ "\n\n" ++
    l.toString ++ "\n" ++ String.ofList (List.replicate blanks ' ') ++
    (if colour then ((Escape.mk []).colour Escape.red).bold.wrap marks else marks) ++ "\n"

/--
A diagnostic is printed with the line that its span starts in.  There is a blank below each character in front of the
span, and a caret below each one that the span covers; if it covers none there is one caret.
-/
def Diagnostic.Shows (d : Diagnostic) (file : SourceFile) : Prop :=
  ∃ l before covered after, file.HasLine l ∧ l.Reaches d.span.start.toNat ∧ l.Cut d.span before covered after ∧
    ∀ colour, d.print file colour = .ok (d.shown file colour l before.length (max 1 covered.length))

/-! ### Spans in the text -/

section

variable {file : SourceFile} {ts : List Token}

/-- What is found in a text stands in it. -/
private theorem Lexer.Finds.within {rules : List (Rule TokenKind)} {start final : Nat} {rest : List Char}
    {lexemes : List (Lexeme TokenKind)} (h : Lexer.Finds rules start rest lexemes final) :
    ∀ l ∈ lexemes, l.start + l.text.length ≤ start + rest.length := by
  induction h with
  | stuck _ => simp
  | @cons start n _ rest _ _ _ _ hn _ ih =>
    intro l hl
    rcases List.mem_cons.mp hl with rfl | hl
    · exact Nat.add_le_add_left (List.length_take_le' n rest) start
    · have hle := ih l hl
      rw [List.length_drop] at hle
      omega
  | last _ _ =>
    intro l hl
    rw [List.mem_singleton.mp hl]
    exact Nat.add_le_add_left (Nat.zero_le _) _

/-- The tokens of a file are parts of its text, and so is the character at which it is refused. -/
private theorem SourceFile.tokens_within (file : SourceFile) :
    (∃ ts, file.tokens = .ok ts ∧ TokenStream ts ∧ ∀ t ∈ ts, file.Contains t.span) ∨
      ∃ d, file.tokens = .error (.refused d) ∧ file.Contains d.span := by
  have hregular : ∀ r ∈ Token.rules, r.Regular := fun r hr =>
    (Token.mem_rules.mp hr).elim (fun hr => .inl (Token.innerRules_inside hr).1) fun heq => .inr (heq ▸ rfl)
  obtain ⟨all, final, hfinds⟩ := Lexer.exists_finds hregular 0 file.contents
  have htokens := tokens_of_finds hfinds
  by_cases hlt : final < file.length
  · rw [if_pos hlt] at htokens
    refine .inr ⟨_, htokens, Int.natCast_nonneg _, ?_⟩
    change (final + 1 : Int) ≤ file.length
    omega
  · rw [if_neg hlt] at htokens
    refine .inl ⟨_, htokens, file.stream_of_tokens htokens, fun t ht => ?_⟩
    obtain ⟨l, hl, rfl⟩ := List.mem_map.mp ht
    have hwithin := hfinds.within l (List.mem_of_mem_filter hl)
    refine ⟨Int.natCast_nonneg _, ?_⟩
    change (l.start + l.text.length : Int) ≤ file.length
    rw [length]
    omega

private theorem Span.Runs.contains {s : Span} {i j : Nat} (h : s.Runs ts i j) (hts : ∀ t ∈ ts, file.Contains t.span) :
    file.Contains s := by
  obtain ⟨⟨t, ht, hstart⟩, u, hu, hstop⟩ := h
  refine ⟨?_, ?_⟩
  · rw [hstart]
    exact (hts t (List.mem_of_getElem? ht)).start
  · rw [hstop]
    exact (hts u (List.mem_of_getElem? hu)).stop

/-- Every diagnostic of a compiled file is about a part of its text. -/
private theorem SourceFile.compile_contains (file : SourceFile) (options : Options) :
    ∃ u, file.compile options = .ok u ∧ ∀ d ∈ u.errors, file.Contains d.span := by
  rcases file.tokens_within with ⟨ts, htokens, hstream, hts⟩ | ⟨d, hrefused, hd⟩
  · -- a file is laid out like itself
    have hsame : SameWords ts ts := ⟨hstream, hstream, rfl⟩
    have hread : Except.Rel (Stop.Aligned ts ts) (List.Forall₂ (Decl.Matches (layout ts ts))) file.declarations
        file.declarations := by
      simp only [declarations, htokens, ok_bind]
      exact Decl.ofTokens_aligned hsame
    obtain ⟨u, u', hu, -, haligned⟩ := file.compile_aligned hsame options hread
    have hcontains : List.Forall₂ (fun d d' => file.Contains d.span ∧ d.Aligned ts ts d') u.errors u'.errors := by
      refine haligned.errors.imp fun d d' h => ⟨?_, h⟩
      obtain ⟨i, j, -, hruns, -⟩ := h.span
      exact hruns.contains hts
    exact ⟨u, hu, ((List.forall₂_and_left _ _).mp hcontains).1⟩
  · have hdecls : file.declarations = .error (.refused d) := by
      simp only [declarations, hrefused]
      rfl
    refine ⟨_, file.compile_of_refused options hdecls, ?_⟩
    simpa using hd

end

/-! ### Printing -/

/-- A span that starts in a line cuts it. -/
private theorem Line.Reaches.exists_cut {l : Line} {s : Span} (hs : 0 ≤ s.start) (h : l.Reaches s.start.toNat) :
    ∃ before covered after, l.Cut s before covered after := by
  obtain ⟨hfirst, hlast⟩ := h
  have hlength : l.text.length = l.length := rfl
  have horder := s.start_le_stop
  refine ⟨l.text.take (s.start.toNat - l.start), (l.text.drop (s.start.toNat - l.start)).take s.length,
    (l.text.drop (s.start.toNat - l.start)).drop s.length, ?_, ?_, ?_⟩
  · rw [List.take_append_drop, List.take_append_drop]
  · rw [List.length_take, hlength]
    omega
  · rw [List.length_take, List.length_drop, hlength, Span.length]
    omega

/-- A line is not longer than its file, nor is a part of it. -/
private theorem Line.Cut.length_le {f : SourceFile} {l : Line} {s : Span} {before covered after : List Char}
    (h : l.Cut s before covered after) (hl : f.HasLine l) : before.length ≤ f.length := by
  obtain ⟨front, behind, hl⟩ := hl
  rw [SourceFile.length, hl.contents, h.text]
  simp only [List.length_append]
  omega

private theorem indentation_of_le {file : SourceFile} {n : Nat} (h : n ≤ file.length) :
    indentation file n = .ok (String.ofList (List.replicate n ' ')) := by
  rw [indentation, if_neg (by omega), if_neg (by omega), Int.toNat_natCast]

/-- A diagnostic about a part of the text is printed with its line. -/
private theorem Diagnostic.shows_of_contains {file : SourceFile} {d : Diagnostic} (h : file.Contains d.span) :
    d.Shows file := by
  have hstart := h.start
  have hstop := h.stop
  have horder := d.span.start_le_stop
  have hle : d.span.start.toNat ≤ file.length := by omega
  obtain ⟨hline, hreaches⟩ := SourceFile.hasLine_lineAt hle
  rw [Int.toNat_of_nonneg hstart] at hline hreaches
  obtain ⟨before, covered, after, hcut⟩ := hreaches.exists_cut hstart
  refine ⟨_, before, covered, after, hline, hreaches, hcut, fun colour => ?_⟩
  -- the offset in the line is the number of blanks, and the rest of the line bounds the carets
  have hoffset : d.span.start - (file.lineAt d.span.start).start = before.length := by
    have := hcut.start
    omega
  have hcarets : max 1 (min ((file.lineAt d.span.start).length - (before.length : Int)) d.span.length) =
      (max 1 covered.length : Nat) := by
    have := hcut.start
    have := hcut.stop
    rw [Span.length]
    omega
  have hblanks := indentation_of_le (hcut.length_le hline)
  have hfirst : (1 + before.length : Int) = (1 + before.length : Nat) := by omega
  simp only [print, hoffset, hcarets, hblanks, hfirst, ok_bind, Int.toNat_natCast, ← Int.natCast_add]
  rfl

/-- Every diagnostic of a compiled file is printed with its line, for all options. -/
theorem SourceFile.compile_prints (file : SourceFile) (options : Options) :
    ∃ u, file.compile options = .ok u ∧ ∀ d ∈ u.errors, d.Shows file := by
  obtain ⟨u, hu, hcontains⟩ := file.compile_contains options
  exact ⟨u, hu, fun d hd => Diagnostic.shows_of_contains (hcontains d hd)⟩

end RainCheck

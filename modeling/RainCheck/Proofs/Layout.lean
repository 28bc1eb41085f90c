import RainCheck.Proofs.AlignedExpr
import RainCheck.Proofs.RelocatedModules

/-!
# Layout does not matter

Whitespace and comments between the tokens of a file do not change what is made of it: two files with the same kinds and
texts of tokens are compiled alike, and all that differs is where the tokens stand (`compile_layout`).
* Declarations are read alike (`Decl.ofTokens_aligned`), and modules whose spans correspond are compiled in step
  (`Module.compile_matches`), because spans over the same tokens are equal in one file just if they are in the other.
* A syntax error is about a single token, which may be the end of the input.  All other spans stay before it.
-/

namespace RainCheck

/-- Two problems with one cause, which are about the same tokens of two files. -/
structure Diagnostic.Aligned (ts ts' : List Token) (d d' : Diagnostic) : Prop where
  span : ∃ i j, i ≤ j ∧ d.span.Runs ts i j ∧ d'.span.Runs ts' i j
  cause : d'.cause = d.cause

/-- Two compiled files with the same trees, frames, types and exports, and with the same problems in the same order. -/
structure CompiledUnit.Aligned (ts ts' : List Token) (u u' : CompiledUnit) : Prop where
  module : Option.Rel (Module.Matches (layout ts ts')) u.module u'.module
  errors : List.Forall₂ (Diagnostic.Aligned ts ts') u.errors u'.errors

variable {ts ts' : List Token}

private theorem Counterparts.runs {k : Nat} {t t' : Token} (h : Counterparts ts ts' k t t') :
    ∃ i j, i ≤ j ∧ t.span.Runs ts i j ∧ t'.span.Runs ts' i j :=
  ⟨k, k, Nat.le_refl k, ⟨⟨t, h.left, rfl⟩, t, h.left, rfl⟩, ⟨t', h.right, rfl⟩, t', h.right, rfl⟩

/-- A file that is split into tokens is split into a stream of them. -/
theorem SourceFile.stream_of_tokens {file : SourceFile} (h : file.tokens = .ok ts) : TokenStream ts := by
  rcases file.tokens_cases with ⟨us, hus, hstream⟩ | ⟨d, hrefused⟩
  · rw [h] at hus
    cases hus
    exact hstream
  · rw [h] at hrefused
    cases hrefused

/-- Files that are read alike are compiled alike. -/
theorem SourceFile.compile_aligned {file file' : SourceFile} (hts : SameWords ts ts') (options : Options)
    (h : Except.Rel (Stop.Aligned ts ts') (List.Forall₂ (Decl.Matches (layout ts ts'))) file.declarations
      file'.declarations) :
    ∃ u u', file.compile options = .ok u ∧ file'.compile options = .ok u' ∧ u.Aligned ts ts' u' := by
  rcases file.declarations_parsed with ⟨decls, hdecls, hparsed⟩ | ⟨d, hrefused⟩
  · rw [hdecls] at h
    obtain ⟨decls', hdecls', hmatches⟩ := h.exists_ok
    obtain ⟨m, errors, hcompile, -, -⟩ := compile_ends options file hparsed
    have hcompiled := Module.compile_matches hts.exact options (a := { file, decls })
      (b := { file := file', decls := decls' }) ⟨hmatches, initial_matches _⟩
    rw [hcompile] at hcompiled
    obtain ⟨⟨m', errors'⟩, hcompile', hm, herrors⟩ := hcompiled.exists_ok
    refine ⟨_, _, file.compile_of_module hdecls hcompile, file'.compile_of_module hdecls' hcompile', .some hm, ?_⟩
    refine herrors.imp fun d d' ⟨hspan, hcause⟩ => ⟨?_, hcause⟩
    obtain ⟨i, j, hij, -, hs, hs'⟩ := hspan
    exact ⟨i, j, hij, hs, hs'⟩
  · rw [hrefused] at h
    obtain ⟨why, hrefused', hstop⟩ := h.exists_error
    cases hstop with
    | refused ht =>
      refine ⟨_, _, file.compile_of_refused options hrefused, file'.compile_of_refused options hrefused', .none, ?_⟩
      exact .cons ⟨ht.runs, rfl⟩ .nil

/--
Two files with the same kinds and texts of tokens are compiled to the same module, if there is one, with the same
problems in the same order.  Spans that correspond run over the same tokens.
-/
theorem SourceFile.compile_layout {file file' : SourceFile} (options : Options) (htokens : file.tokens = .ok ts)
    (htokens' : file'.tokens = .ok ts') (hwords : ts.map Token.toWord = ts'.map Token.toWord) :
    ∃ u u', file.compile options = .ok u ∧ file'.compile options = .ok u' ∧ u.Aligned ts ts' u' := by
  have hts : SameWords ts ts' := ⟨file.stream_of_tokens htokens, file'.stream_of_tokens htokens', hwords⟩
  refine file.compile_aligned hts options ?_
  simp only [SourceFile.declarations, htokens, htokens', ok_bind]
  exact Decl.ofTokens_aligned hts

/-- A function on one line. -/
def oneLine : SourceFile := ⟨"line", "fn f(a:i32)->i32{a+true}".toList⟩

/-- The same function on several lines with a comment. -/
def severalLines : SourceFile := ⟨"lines", "fn f(a: i32) -> i32 { // sum
  a + true
}".toList⟩

theorem SourceFile.compile_layout_comment : ∃ file file' : SourceFile, ∃ ts ts' u u',
    file = oneLine ∧ file' = severalLines ∧
      file.tokens = .ok ts ∧ file'.tokens = .ok ts' ∧ ts.map Token.toWord = ts'.map Token.toWord ∧
      file.compile {} = .ok u ∧ file'.compile {} = .ok u' ∧
      u.errors.map (fun d => (d.span, d.message)) = [(.ofLength 19 4, "expected type i32, found bool")] ∧
      u'.errors.map (fun d => (d.span, d.message)) = [(.ofLength 35 4, "expected type i32, found bool")] ∧
      u.Aligned ts ts' u' := by
  have hread : ∀ {x y : Except Stop (List Token)},
      x.toOption.map (·.map Token.toWord) = y.toOption.map (·.map Token.toWord) → x.toOption.isSome →
        ∃ ts ts', x = .ok ts ∧ y = .ok ts' ∧ ts.map Token.toWord = ts'.map Token.toWord := by
    rintro (why | ts) (why' | ts') hwords hsome <;> simp_all [Except.toOption]
  obtain ⟨ts, ts', hts, hts', hwords⟩ := hread (x := oneLine.tokens) (y := severalLines.tokens) (by decide +kernel)
    (by decide +kernel)
  obtain ⟨u, u', hu, hu', haligned⟩ := SourceFile.compile_layout {} hts hts' hwords
  have hproblems : (oneLine.compile {}).toOption.map (fun u => u.errors.map fun d => (d.span, d.message)) =
      some [(.ofLength 19 4, "expected type i32, found bool")] := by
    decide +kernel
  have hproblems' : (severalLines.compile {}).toOption.map (fun u => u.errors.map fun d => (d.span, d.message)) =
      some [(.ofLength 35 4, "expected type i32, found bool")] := by
    decide +kernel
  rw [hu] at hproblems
  rw [hu'] at hproblems'
  exact ⟨_, _, ts, ts', u, u', rfl, rfl, hts, hts', hwords, hu, hu', Option.some.inj hproblems,
    Option.some.inj hproblems', haligned⟩

end RainCheck

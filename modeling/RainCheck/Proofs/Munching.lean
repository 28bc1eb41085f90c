import RainCheck.Proofs.TokenStream

/-!
# Maximal munch

What a lexer makes of a text, for all lists of rules, all kinds of items and all orders of calls (`calls_munch`).
* `Splits` says which lexemes a text consists of: they stand one behind the other, each is the longest match at its
  position by the first rule with such a match, and they end where no rule matches.
* `Awaits` relates a lexer to the lexemes that are still to come.  A call takes from them, and
  looking ahead takes nothing.
-/

namespace RainCheck

/-- Lexemes that stand one behind the other from a position to another one.  None of them is empty. -/
inductive Lexeme.Adjoin {κ α : Type} : (start : Nat) → List (Lexeme κ α) → (stop : Nat) → Prop where
  | nil (start : Nat) : Adjoin start [] start
  | cons {kind : κ} {start stop : Nat} {text : List α} {rest : List (Lexeme κ α)} (htext : text ≠ [])
      (hrest : Adjoin (start + text.length) rest stop) : Adjoin start (⟨kind, start, text⟩ :: rest) stop

/-- A rule stays inside of the text, or it does nothing but ask for the end. -/
def Rule.Regular {κ α : Type} (r : Rule κ α) : Prop := r.scanner.staysInside = true ∨ r.scanner = .endOfInput

namespace Lexer

variable {κ α : Type} [DecidableEq α] [LE α] [DecidableLE α] {rules : List (Rule κ α)}

private theorem regular_run {r : Rule κ α} (h : r.Regular) (text : List α) :
    ∃ n, r.scanner.run text = .ok n ∧ (text ≠ [] → n ≤ text.length) := by
  rcases h with h | h
  · obtain ⟨n, hn, hle⟩ := Scanner.run_le _ h text
    exact ⟨n, hn, fun _ => hle⟩
  · refine ⟨if text.isEmpty then 1 else 0, by rw [h, Scanner.run], fun htext => ?_⟩
    rw [if_neg (by simpa using htext)]
    exact Nat.zero_le _

/-- At the end of the text only a rule that asks for it matches. -/
private theorem regular_run_end {r : Rule κ α} (h : r.Regular) :
    r.scanner = .endOfInput ∧ r.scanner.run [] = .ok 1 ∨ r.scanner ≠ .endOfInput ∧ r.scanner.run [] = .ok 0 := by
  rcases h with h | h
  · right
    obtain ⟨n, hn, hle⟩ := Scanner.run_le _ h []
    have hzero : n = 0 := by simpa using hle
    refine ⟨fun heq => ?_, by rw [hn, hzero]⟩
    rw [heq] at h
    cases h
  · exact .inl ⟨h, by rw [h]; rfl⟩

/-! ### Lexemes of a text -/

/--
A text consists of `lexemes` from the position `start` to `stop`; behind them the end of the text may be a lexeme of its
own.
-/
structure Splits (rules : List (Rule κ α)) (text : List α) (start : Nat) (lexemes ending : List (Lexeme κ α))
    (stop : Nat) : Prop where
  adjoin : Lexeme.Adjoin start lexemes stop
  stop_le : stop ≤ text.length
  /-- Each lexeme is a part of the text. -/
  written : ∀ l ∈ lexemes, l.text <+: text.drop l.start
  /-- Each lexeme is the longest match at its position, by the first rule with such a match. -/
  wins : ∀ l ∈ lexemes, Wins rules (text.drop l.start) l.text.length l.kind
  /-- Inside of the text they end where no rule matches. -/
  stuck : stop < text.length → ∀ r ∈ rules, r.scanner.run (text.drop stop) = .ok 0
  /-- At the end of the text there is at most one lexeme.  It is empty, and by the first rule that asks for the end. -/
  ending_cases : ending = [] ∨ ∃ kind, ending = [⟨kind, text.length, []⟩] ∧ Wins rules [] 1 kind
  ending_iff : ending ≠ [] ↔ stop = text.length ∧ ∃ r ∈ rules, r.scanner = .endOfInput

/--
The lexemes that are found one after the other from a position on, where `rest` is left of the text, and the position
behind them.
-/
inductive Finds (rules : List (Rule κ α)) :
    (start : Nat) → (rest : List α) → List (Lexeme κ α) → (final : Nat) → Prop where
  | stuck {start : Nat} {rest : List α}
      (hstuck : ∀ r ∈ rules, r.scanner.run rest = .ok 0) : Finds rules start rest [] start
  | cons {start n final : Nat} {rest : List α} {kind : κ} {lexemes : List (Lexeme κ α)} (hrest : rest ≠ [])
      (hwins : Wins rules rest n kind) (hn : n ≤ rest.length)
      (h : Finds rules (start + n) (rest.drop n) lexemes final) :
      Finds rules start rest (⟨kind, start, rest.take n⟩ :: lexemes) final
  | last {start n : Nat} {rest : List α} {kind : κ} (hrest : rest = []) (hwins : Wins rules rest n kind) :
      Finds rules start rest [⟨kind, start, []⟩] (start + 1)

/-- Not more than one lexeme is found at each position, with that of the end. -/
theorem Finds.length_le {start final : Nat} {rest : List α} {lexemes : List (Lexeme κ α)}
    (h : Finds rules start rest lexemes final) : lexemes.length ≤ rest.length + 1 := by
  induction h with
  | stuck _ => exact Nat.zero_le _
  | @cons _ n _ rest _ lexemes _ hwins hn _ ih =>
    have hpos := hwins.pos
    rw [List.length_drop] at ih
    rw [List.length_cons]
    omega
  | last _ _ => simp

theorem exists_finds (hregular : ∀ r ∈ rules, r.Regular) (start : Nat) (rest : List α) :
    ∃ lexemes final, Finds rules start rest lexemes final := by
  induction hlen : rest.length using Nat.strongRecOn generalizing start rest with
  | _ length ih =>
    subst hlen
    have hrules : ∀ r ∈ rules, ∃ n, r.scanner.run rest = .ok n := fun r hr =>
      (regular_run (hregular r hr) rest).imp fun _ h => h.1
    rcases exists_wins hrules 0 with hmax | ⟨n, kind, hpos, hwins⟩
    · refine ⟨[], start, .stuck fun r hr => ?_⟩
      obtain ⟨n, hn, hle⟩ := hmax r hr
      have hzero : n = 0 := by simpa using hle
      rw [hn, hzero]
    · by_cases hrest : rest = []
      · exact ⟨_, _, .last hrest hwins⟩
      · obtain ⟨before, scanner, behind, hsplit, hrun, _⟩ := id hwins
        obtain ⟨m, hm, hle⟩ := regular_run (hregular ⟨kind, scanner⟩ (by rw [hsplit]; simp)) rest
        have hn : n ≤ rest.length := by
          rw [hrun] at hm
          cases hm
          exact hle hrest
        obtain ⟨lexemes, final, hfinds⟩ :=
          ih (rest.drop n).length (by rw [List.length_drop]; omega) (start + n) (rest.drop n) rfl
        exact ⟨_, _, .cons hrest hwins hn hfinds⟩

/-- What is found consists of the lexemes of the text. -/
private theorem Finds.splits (hregular : ∀ r ∈ rules, r.Regular) {text rest : List α} {start final : Nat}
    {all : List (Lexeme κ α)} (h : Finds rules start rest all final) (hrest : rest = text.drop start)
    (hstart : start ≤ text.length) : ∃ lexemes ending stop, all = lexemes ++ ending ∧
      Splits rules text start lexemes ending stop ∧ final = if ending.isEmpty then stop else text.length + 1 := by
  induction h with
  | @stuck start rest hstuck =>
    refine ⟨[], [], start, rfl, ?_, rfl⟩
    refine ⟨.nil start, hstart, by simp, by simp, fun _ r hr => hrest ▸ hstuck r hr, .inl rfl, ?_⟩
    refine ⟨fun h => absurd rfl h, fun ⟨hend, r, hr, heq⟩ => ?_⟩
    have hzero := hstuck r hr
    rw [hrest, hend, List.drop_length, heq] at hzero
    simp [Scanner.run] at hzero
  | @cons start n final rest kind lexemes hne hwins hn _ ih =>
    have hlen : (rest.take n).length = n := by rw [List.length_take]; omega
    have hle : start + n ≤ text.length := by
      rw [hrest, List.length_drop] at hn
      omega
    -- the scan goes on behind a lexeme that is not empty
    have hpos := hwins.pos
    obtain ⟨lexemes, ending, stop, rfl, hsplits, hfinal⟩ := ih (by rw [hrest, List.drop_drop]) hle
    refine ⟨⟨kind, start, rest.take n⟩ :: lexemes, ending, stop, rfl, ?_, hfinal⟩
    refine ⟨.cons ?_ (by rw [hlen]; exact hsplits.adjoin), hsplits.stop_le, ?_, ?_, hsplits.stuck, hsplits.ending_cases,
      hsplits.ending_iff⟩
    · intro hnil
      rw [hnil, List.length_nil] at hlen
      omega
    · intro l hl
      rcases List.mem_cons.mp hl with rfl | hl
      · simpa only [← hrest] using List.take_prefix n rest
      · exact hsplits.written l hl
    · intro l hl
      rcases List.mem_cons.mp hl with rfl | hl
      · simpa only [← hrest, hlen] using hwins
      · exact hsplits.wins l hl
  | @last start n rest kind hnil hwins =>
    subst hnil
    have hend : start = text.length := by
      have hzero := congrArg List.length hrest
      rw [List.length_drop, List.length_nil] at hzero
      omega
    obtain ⟨before, scanner, behind, hsplit, hrun, hpos, _⟩ := id hwins
    have hmem : ⟨kind, scanner⟩ ∈ rules := by rw [hsplit]; simp
    -- only the scanner for the end of the text accepts nothing, and it does so at the end
    rcases regular_run_end (hregular _ hmem) with ⟨hscanner, hone⟩ | ⟨_, hzero⟩
    · rw [hrun] at hone
      cases hone
      subst hend
      refine ⟨[], [⟨kind, text.length, []⟩], text.length, rfl, ?_, rfl⟩
      refine ⟨.nil _, Nat.le_refl _, by simp, by simp, fun h => absurd h (Nat.lt_irrefl _), .inr ⟨kind, rfl, hwins⟩, ?_⟩
      exact ⟨fun _ => ⟨rfl, _, hmem, hscanner⟩, fun _ => List.cons_ne_nil _ _⟩
    · rw [hrun] at hzero
      cases hzero
      omega

/-! ### Lexers -/

/-- A lexer on a text to which lexemes are still to come; it will stand at the position `final` then. -/
structure Awaits (l : Lexer κ α) (text : List α) (lexemes : List (Lexeme κ α)) (final : Nat) : Prop where
  rest : l.rest = text.drop l.index
  finds : l.ended = false → Finds l.rules l.index l.rest lexemes final
  ended : l.ended = true → lexemes = [] ∧ l.index = final
  /-- What was looked ahead for is the first of them. -/
  lookahead : l.lookahead = none ∨ l.lookahead = lexemes.head?

namespace Awaits

variable {l : Lexer κ α} {text : List α} {x : Lexeme κ α} {lexemes : List (Lexeme κ α)} {final : Nat}

private theorem find_eq (h : l.Awaits text lexemes final) : l.find = .ok lexemes.head? := by
  unfold find
  cases hended : l.ended with
  | true => simp [(h.ended hended).1]
  | false =>
    cases h.finds hended with
    | stuck hstuck => simp [longest_of_le (0, none) fun r hr => ⟨0, hstuck r hr, Nat.le_refl _⟩]
    | cons _ hwins => simp [hwins.longest (0, none) hwins.pos]
    | last hrest hwins => simpa [hwins.longest (0, none) hwins.pos] using .inr hrest

/-- Looking ahead finds out whether a lexeme is still to come, and takes nothing. -/
private theorem hasNext_eq (h : l.Awaits text lexemes final) :
    l.hasNext = .ok (!lexemes.isEmpty, { l with lookahead := lexemes.head? }) := by
  unfold hasNext
  split
  · rename_i x hx
    -- nothing is looked for twice
    have heq : some x = lexemes.head? := by
      rcases h.lookahead with heq | heq <;> simp_all
    cases lexemes with
    | nil => cases heq
    | cons y rest =>
      rw [← heq, ← hx]
      rfl
  · rw [h.find_eq]
    cases lexemes <;> rfl

private theorem ahead (h : l.Awaits text lexemes final) :
    { l with lookahead := lexemes.head? }.Awaits text lexemes final :=
  ⟨h.rest, h.finds, h.ended, .inr rfl⟩

/-- A lexer stands at the first of the lexemes that are still to come, or behind all of them. -/
theorem index_eq (h : l.Awaits text lexemes final) : l.index = (lexemes.head?.map (·.start)).getD final := by
  cases hended : l.ended with
  | true =>
    obtain ⟨rfl, hindex⟩ := h.ended hended
    exact hindex
  | false => cases h.finds hended <;> rfl

private theorem skip (h : l.Awaits text (x :: lexemes) final) : (l.skip x).Awaits text lexemes final := by
  have hended : l.ended = false := by
    cases hended : l.ended with
    | true => cases (h.ended hended).1
    | false => rfl
  cases h.finds hended with
  | @cons _ n _ _ kind _ hrest hwins hn hfinds =>
    have hlen : (l.rest.take n).length = n := by rw [List.length_take]; omega
    have hskip : l.skip ⟨kind, l.index, l.rest.take n⟩ =
        { l with index := l.index + n, rest := l.rest.drop n, lookahead := none } := by
      simp [Lexer.skip, hrest, hlen]
    rw [hskip]
    exact ⟨by simp [h.rest], fun _ => hfinds, fun hended' => absurd hended' (by simp [hended]), .inl rfl⟩
  | @last _ n _ kind hrest hwins =>
    have hskip : l.skip ⟨kind, l.index, []⟩ = { l with index := l.index + 1, ended := true, lookahead := none } := by
      simp [Lexer.skip, hrest]
    rw [hskip]
    refine ⟨?_, fun hended' => absurd hended' (by simp), fun _ => ⟨rfl, rfl⟩, .inl rfl⟩
    have hpast := h.rest
    rw [hrest, eq_comm, List.drop_eq_nil_iff] at hpast
    rw [hrest, eq_comm, List.drop_eq_nil_iff]
    exact Nat.le_succ_of_le hpast

private theorem next_eq (h : l.Awaits text (x :: lexemes) final) : l.next = .ok (x, l.skip x) := by
  rw [next, h.hasNext_eq]
  rfl

private theorem next_error (h : l.Awaits text [] final) : l.next = .error .noToken := by
  rw [next, h.hasNext_eq]
  rfl

/-- Collecting takes all lexemes that are still to come. -/
theorem collectAtMost_eq (h : l.Awaits text lexemes final) {bound : Nat} (hbound : lexemes.length < bound) :
    ∃ l', l.collectAtMost bound = .ok (lexemes, l') ∧ l'.Awaits text [] final := by
  induction lexemes generalizing l bound with
  | nil =>
    obtain ⟨bound, rfl⟩ := Nat.exists_eq_succ_of_ne_zero (Nat.ne_of_gt hbound)
    exact ⟨_, by rw [collectAtMost, h.hasNext_eq]; rfl, h.ahead⟩
  | cons x rest ih =>
    obtain ⟨bound, rfl⟩ := Nat.exists_eq_succ_of_ne_zero (Nat.ne_of_gt (Nat.zero_lt_of_lt hbound))
    obtain ⟨l', hcollect, hawaits⟩ := ih h.ahead.skip (Nat.lt_of_succ_lt_succ hbound)
    refine ⟨l', ?_, hawaits⟩
    rw [collectAtMost, h.hasNext_eq]
    simp only [List.isEmpty_cons, Bool.not_false, ok_bind, if_true, h.ahead.next_eq, hcollect, pure_eq_ok]

end Awaits

/-! ### Calls in any order -/

/-- The calls on a lexer. -/
inductive Call where
  | hasNext
  | next
  | collect

/-- What a call answers. -/
inductive Answer (κ : Type) (α : Type := Char) where
  | whether (more : Bool)
  | lexeme (found : Lexeme κ α)
  | lexemes (all : List (Lexeme κ α))
  deriving DecidableEq

/-- Makes a call on a lexer. -/
def call : Call → Lexer κ α → Except Fault (Answer κ α × Lexer κ α)
  | .hasNext, l => do
    let (more, l) ← l.hasNext
    return (.whether more, l)
  | .next, l => do
    let (found, l) ← l.next
    return (.lexeme found, l)
  | .collect, l => do
    let (all, l) ← l.collect
    return (.lexemes all, l)

/-- Answers a call from the lexemes that are still to come. -/
def Call.answer {κ α : Type} : Call → List (Lexeme κ α) → Except Fault (Answer κ α × List (Lexeme κ α))
  | .hasNext, lexemes => .ok (.whether !lexemes.isEmpty, lexemes)
  | .next, x :: rest => .ok (.lexeme x, rest)
  | .next, [] => .error .noToken
  | .collect, lexemes => .ok (.lexemes lexemes, [])

/-- Makes calls one after the other; a call that raises a fault ends them. -/
def Call.inTurn {σ β : Type} (make : Call → σ → Except Fault (β × σ)) : List Call → σ → Except Fault (List β × σ)
  | [], s => .ok ([], s)
  | c :: rest, s => do
    let (answer, s) ← make c s
    let (answers, s) ← inTurn make rest s
    return (answer :: answers, s)

/-- A call on a lexer is answered from the lexemes that are still to come. -/
private theorem Awaits.answer {l : Lexer κ α} {text : List α} {lexemes : List (Lexeme κ α)} {final : Nat}
    (h : l.Awaits text lexemes final) (c : Call) :
    match c.answer lexemes with
    | .error f => Lexer.call c l = .error f
    | .ok (answer, left) => ∃ l', Lexer.call c l = .ok (answer, l') ∧ l'.Awaits text left final := by
  cases c with
  | hasNext => exact ⟨_, by rw [Lexer.call, h.hasNext_eq]; rfl, h.ahead⟩
  | next =>
    cases lexemes with
    | nil =>
      change Lexer.call .next l = .error .noToken
      rw [Lexer.call, h.next_error]
      rfl
    | cons x rest => exact ⟨_, by rw [Lexer.call, h.next_eq]; rfl, h.skip⟩
  | collect =>
    have hbound : lexemes.length < l.rest.length + 2 := by
      cases hended : l.ended with
      | true => simp [(h.ended hended).1]
      | false => exact Nat.lt_succ_of_le (h.finds hended).length_le
    obtain ⟨l', hcollect, hawaits⟩ := h.collectAtMost_eq hbound
    exact ⟨l', by rw [Lexer.call, collect, hcollect]; rfl, hawaits⟩

/-- So are calls one after the other. -/
private theorem Awaits.answers {l : Lexer κ α} {text : List α} {lexemes : List (Lexeme κ α)} {final : Nat}
    (h : l.Awaits text lexemes final) (calls : List Call) :
    match Call.inTurn Call.answer calls lexemes with
    | .error f => Call.inTurn Lexer.call calls l = .error f
    | .ok (answers, left) => ∃ l', Call.inTurn Lexer.call calls l = .ok (answers, l') ∧ l'.Awaits text left final := by
  -- by induction on the calls: each leaves a lexer that awaits what is left
  induction calls generalizing l lexemes with
  | nil => exact ⟨l, rfl, h⟩
  | cons c rest ih =>
    have hcall := h.answer c
    unfold Call.inTurn
    cases hanswer : c.answer lexemes with
    | error f =>
      rw [hanswer] at hcall
      simp only [error_bind]
      rw [hcall, error_bind]
    | ok result =>
      obtain ⟨answer, left⟩ := result
      rw [hanswer] at hcall
      obtain ⟨l', hcall, hawaits⟩ := hcall
      have hrest := ih hawaits
      simp only [hcall, ok_bind]
      cases hanswers : Call.inTurn Call.answer rest left with
      | error f =>
        rw [hanswers] at hrest
        simp only [error_bind]
        rw [hrest, error_bind]
      | ok result =>
        obtain ⟨answers, left'⟩ := result
        rw [hanswers] at hrest
        obtain ⟨l'', hcalls, hawaits'⟩ := hrest
        exact ⟨l'', by rw [hcalls]; rfl, hawaits'⟩

/--
All calls on a lexer of a text, in any order, are answered from `lexemes` one after the other.  The lexer stands at the
first one that is still to come, and at the position `final` if there is none; what lies ahead is not consumed.
-/
def Delivers (rules : List (Rule κ α)) (text : List α) (lexemes : List (Lexeme κ α)) (final : Nat) : Prop :=
  ∀ calls : List Call,
    match Call.inTurn Call.answer calls lexemes with
    | .error f => Call.inTurn call calls { rules, rest := text } = .error f
    | .ok (answers, left) => ∃ l, Call.inTurn call calls { rules, rest := text } = .ok (answers, l) ∧
        l.index = (left.head?.map (·.start)).getD final ∧ l.remaining = text.length - l.index

/--
A text splits into lexemes, which are delivered to all calls in any order.  Behind the last one the
lexer stands where no rule matches, or past the end of the text if the end is a lexeme of its own.
-/
theorem calls_munch (rules : List (Rule κ α)) (text : List α) (hregular : ∀ r ∈ rules, r.Regular) :
    ∃ lexemes ending stop, Splits rules text 0 lexemes ending stop ∧
      Delivers rules text (lexemes ++ ending) (if ending.isEmpty then stop else text.length + 1) := by
  obtain ⟨all, final, hfinds⟩ := exists_finds hregular 0 text
  obtain ⟨lexemes, ending, stop, rfl, hsplits, hfinal⟩ := hfinds.splits hregular rfl (Nat.zero_le _)
  refine ⟨lexemes, ending, stop, hsplits, fun calls => ?_⟩
  have hstart : Awaits { rules, rest := text } text (lexemes ++ ending) final :=
    ⟨rfl, fun _ => hfinds, nofun, .inl rfl⟩
  have hcalls := hstart.answers calls
  cases hanswers : Call.inTurn Call.answer calls (lexemes ++ ending) with
  | error f =>
    rw [hanswers] at hcalls
    exact hcalls
  | ok result =>
    obtain ⟨answers, left⟩ := result
    rw [hanswers] at hcalls
    obtain ⟨l, hl, hawaits⟩ := hcalls
    refine ⟨l, hl, by rw [hawaits.index_eq, hfinal], ?_⟩
    rw [remaining, hawaits.rest, List.length_drop]

/-- Rules of which some compete: blanks, numbers, comparisons and the end of the text. -/
def comparisonRules : List (Rule String) :=
  [⟨"blank", .many (.exactly [' '])⟩, ⟨"number", .inOrderThen [.within '1' '9'] (.many (.within '0' '9'))⟩,
    ⟨"less", .exactly ['<']⟩, ⟨"at most", .inOrder [.exactly ['<'], .exactly ['=']]⟩, ⟨"end", .endOfInput⟩]

/-- A text with an unknown character behind two comparisons. -/
theorem calls_munch_comparison : (∀ r ∈ comparisonRules, r.Regular) ∧
    ∃ lexemes ending stop, Splits comparisonRules "<<=?".toList 0 lexemes ending stop ∧
      Delivers comparisonRules "<<=?".toList (lexemes ++ ending) (if ending.isEmpty then stop else 5) := by
  have hregular : ∀ r ∈ comparisonRules, r.Regular := by
    simp only [comparisonRules, List.forall_mem_cons]
    exact ⟨.inl rfl, .inl rfl, .inl rfl, .inl rfl, .inr rfl, by simp⟩
  exact ⟨hregular, calls_munch comparisonRules "<<=?".toList hregular⟩

example : (Call.inTurn call [.hasNext, .next, .hasNext, .hasNext, .collect, .hasNext]
      { rules := comparisonRules, rest := "<<=?".toList }).map (·.1) =
    .ok [.whether true, .lexeme ⟨"less", 0, ['<']⟩, .whether true, .whether true,
      .lexemes [⟨"at most", 1, ['<', '=']⟩], .whether false] := by
  decide

end Lexer

end RainCheck

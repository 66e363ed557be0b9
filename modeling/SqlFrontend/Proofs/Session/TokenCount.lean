import SqlFrontend.Proofs.Session.Boundary

/-!
# Tokens are visited once

A parser stands at one place in the tokens of its source, and moves over them one by one. It counts
each as it comes to it, the end of the text once.

Results:
* `Lexer.getElem?_tokens`: the tokens of a text by their number. Behind the last one, the end of the
  text is read again and again.
* `Parser.StandsAt`: the place of a parser, with the count that goes with it. `Ready.standsAt` says
  that every parser in a session has one.
-/

namespace SqlFrontend

namespace Lexer

/-! ## Tokens by their number -/

/-- The lexer behind a number of tokens. -/
def passed (lexer : Lexer) (k : ℕ) : Lexer := (fun l : Lexer => l.next.2)^[k] lexer

/-- The token behind a number of others. -/
def tokenAt (lexer : Lexer) (k : ℕ) : Token := (lexer.passed k).next.1

theorem passed_succ (lexer : Lexer) (k : ℕ) : lexer.passed (k + 1) = (lexer.passed k).next.2 :=
  Function.iterate_succ_apply' _ k lexer

theorem tokenAt_succ (lexer : Lexer) (k : ℕ) : lexer.tokenAt (k + 1) = lexer.next.2.tokenAt k := by
  rw [tokenAt, passed, Function.iterate_succ_apply]
  rfl

/-- Behind the end of the text, the end is read again. -/
theorem next_next {lexer : Lexer} (h : lexer.next.1.isEof) : lexer.next.2.next = lexer.next := by
  obtain ⟨r, hsound, hr, hagain⟩ := exists_reading lexer.dialect lexer.cursor.rest
  rw [hr lexer rfl rfl] at h ⊢
  have hend : lexer.cursor.rest.drop r.gap = [] :=
    hsound.ended (by simpa [Token.isEof, Reading.token] using h)
  have hskip (n : ℕ) : lexer.cursor.skip (r.gap + n) = lexer.cursor.skip r.gap := by
    rw [Cursor.skip_add, Cursor.skip_nil (by rw [Cursor.skip_rest, hend])]
  have hrest : (lexer.cursor.skip (r.gap + r.length)).rest = lexer.cursor.rest.drop r.gap := by
    rw [hskip, Cursor.skip_rest]
  rw [hagain { lexer with cursor := lexer.cursor.skip (r.gap + r.length) } rfl hrest]
  have hstay (n : ℕ) : (lexer.cursor.skip r.gap).skip n = lexer.cursor.skip r.gap :=
    Cursor.skip_nil (by rw [Cursor.skip_rest, hend]) n
  simp only [Reading.token, hskip, hstay]

theorem tokenAt_of_isEof {lexer : Lexer} (h : lexer.next.1.isEof) (k : ℕ) :
    lexer.tokenAt k = lexer.next.1 := by
  induction k generalizing lexer with
  | zero => rfl
  | succ k ih =>
    have hagain := next_next h
    rw [tokenAt_succ, ih (by rw [hagain]; exact h), hagain]

theorem length_tokens_pos (lexer : Lexer) : 0 < lexer.tokens.length := by
  rw [tokens_eq]
  split <;> exact Nat.succ_pos _

/-- The tokens of a text by their number, the last one for every number behind it. -/
theorem getElem?_tokens (lexer : Lexer) (k : ℕ) :
    lexer.tokens[min k (lexer.tokens.length - 1)]? = some (lexer.tokenAt k) := by
  induction k generalizing lexer with
  | zero =>
    rw [Nat.zero_min, tokens_eq]
    split <;> rfl
  | succ k ih =>
    rw [tokens_eq]
    split
    · next h =>
      rw [tokenAt_of_isEof h]
      rfl
    · have hpos := lexer.next.2.length_tokens_pos
      have hmin : min (k + 1) ((lexer.next.1 :: lexer.next.2.tokens).length - 1) =
          min k (lexer.next.2.tokens.length - 1) + 1 := by
        rw [List.length_cons]
        omega
      rw [hmin, List.getElem?_cons_succ, ih, tokenAt_succ]

/-- The last token is the end of the text, and no other is. -/
theorem isEof_tokenAt (lexer : Lexer) (k : ℕ) :
    (lexer.tokenAt k).isEof = decide (lexer.tokens.length ≤ k + 1) := by
  induction k generalizing lexer with
  | zero =>
    have hpos := lexer.next.2.length_tokens_pos
    rw [tokens_eq, tokenAt, passed, Function.iterate_zero_apply]
    cases h : lexer.next.1.isEof with
    | true => rfl
    | false =>
      rw [if_neg nofun, List.length_cons]
      exact (decide_eq_false (by omega)).symm
  | succ k ih =>
    rw [tokens_eq]
    split
    · next h =>
      rw [tokenAt_of_isEof h, h]
      exact (decide_eq_true (Nat.le_add_left _ _)).symm
    · rw [tokenAt_succ, ih, List.length_cons]
      exact decide_eq_decide.2 (by omega)

end Lexer

namespace Parser

/-! ## The place of a parser -/

/-- A parser has come to the token behind `k` others, and has counted the tokens up to it. -/
structure StandsAt (p : Parser) (start : Lexer) (k : ℕ) : Prop where
  current : p.current = start.tokenAt k
  peek : p.peek = start.tokenAt (k + 1)
  lexer : p.lexer = start.passed (k + 2)
  count : p.tokenCount = min (k + 1) start.tokens.length
  counted : p.endCounted = decide (start.tokens.length ≤ k + 1)

namespace StandsAt

variable {p : Parser} {start : Lexer} {k : ℕ}

theorem atEnd (h : p.StandsAt start k) : p.atEnd = decide (start.tokens.length ≤ k + 1) := by
  rw [Parser.atEnd, h.current, Lexer.isEof_tokenAt]

/-- The end of the text is counted if it was not counted before. -/
theorem advance (h : p.StandsAt start k) (hc : ¬p.cancelled) (he : ¬p.expired) :
    p.advance.StandsAt start (k + 1) := by
  have hend : p.peek.isEof = decide (start.tokens.length ≤ k + 2) := by
    rw [h.peek, Lexer.isEof_tokenAt]
  have hpeek : p.lexer.next.1 = start.tokenAt (k + 2) := by rw [h.lexer]; rfl
  have hlexer : p.lexer.next.2 = start.passed (k + 3) := by rw [Lexer.passed_succ, h.lexer]
  have hcount := h.count
  rw [advance_of_live hc he, countCurrent_eq]
  refine ⟨h.peek, hpeek, hlexer, ?_, ?_⟩
  · change (if p.peek.isEof && p.endCounted then p.tokenCount else p.tokenCount + 1) = _
    rw [hend, h.counted]
    by_cases hlast : start.tokens.length ≤ k + 1
    · rw [decide_eq_true hlast, decide_eq_true (by omega), hcount]
      exact (if_pos rfl).trans (by omega)
    · rw [decide_eq_false hlast, Bool.and_false, hcount]
      exact (if_neg nofun).trans (by omega)
  · change (p.peek.isEof || p.endCounted) = _
    rw [hend, h.counted]
    by_cases hlast : start.tokens.length ≤ k + 2
    · rw [decide_eq_true hlast, Bool.true_or]
    · rw [decide_eq_false hlast, decide_eq_false (by omega), Bool.false_or]

theorem of_course {q : Parser} (h : p.StandsAt start k) (hpq : p.course = q.course) :
    q.StandsAt start k := by
  exact ⟨(congrArg Parser.current hpq).symm.trans h.current,
    (congrArg Parser.peek hpq).symm.trans h.peek, (congrArg Parser.lexer hpq).symm.trans h.lexer,
    (congrArg Parser.tokenCount hpq).symm.trans h.count,
    (congrArg Parser.endCounted hpq).symm.trans h.counted⟩

end StandsAt

theorem standsAt_ofSource (source : String) (d : Dialect) (pools : Pools) :
    (ofSource source d false pools).StandsAt (.ofSource source d) 0 := by
  have hpos := (Lexer.ofSource source d).length_tokens_pos
  have hend := Lexer.isEof_tokenAt (.ofSource source d) 0
  rw [ofSource_eq, countCurrent_eq]
  refine ⟨rfl, rfl, rfl, ?_, ?_⟩
  · change (if Token.isEof _ && false then 0 else 0 + 1) = _
    rw [Bool.and_false]
    exact (if_neg nofun).trans (by omega)
  · change (Token.isEof _ || false) = _
    rw [Bool.or_false]
    exact hend

/-- The tokens are passed one by one. -/
theorem Ready.standsAt {p q : Parser} {start : Lexer} (hp : p.Ready) (h : p.Reaches q)
    (hk : ∃ k, p.StandsAt start k) : ∃ k, q.StandsAt start k :=
  h.invariant_of_live (I := fun x => ∃ k, x.StandsAt start k)
    (hp.not_cancelled (.refl p) hp.sound) hp.not_expired hk
    (fun _ hc he ⟨k, hk⟩ => ⟨k + 1, hk.advance hc he⟩) fun _ _ hc ⟨k, hk⟩ => ⟨k, hk.of_course hc⟩

/-- Every token is visited once. Whatever statements were read, with errors or without, a parser stands
at one of the tokens of its source, with the next one ahead, and has counted those up to it. A run to
the end counts all of them. -/
theorem tokens_counted_once (source : String) (d : Dialect) (pools : Pools)
    (ops : List Operation) :
    let tokens := Lexer.tokenize source d
    let p := (ofSource source d false pools).after ops
    (∃ k, tokens[min k (tokens.length - 1)]? = some p.current ∧
        tokens[min (k + 1) (tokens.length - 1)]? = some p.peek ∧
        ∀ nanoseconds, (p.metrics nanoseconds).tokens = min (k + 1) tokens.length) ∧
      p.Runs p.results.1 p.results.2 ∧
      ∀ nanoseconds, (p.results.2.metrics nanoseconds).tokens = tokens.length := by
  intro tokens p
  have hstart : ∃ k, (ofSource source d false pools).StandsAt (.ofSource source d) k :=
    ⟨0, standsAt_ofSource source d pools⟩
  have hfresh := ready_ofSource source d pools
  obtain ⟨hreaches, hp⟩ := hfresh.after ops
  refine ⟨?_, hp.runs_results, fun _ => ?_⟩
  · obtain ⟨k, hk⟩ := hfresh.standsAt hreaches hstart
    refine ⟨k, ?_, ?_, fun _ => hk.count⟩
    · rw [hk.current]
      exact Lexer.getElem?_tokens _ k
    · rw [hk.peek]
      exact Lexer.getElem?_tokens _ (k + 1)
  · obtain ⟨hrun, -, hend⟩ := hp.after_results
    obtain ⟨k, hk⟩ := hfresh.standsAt (hreaches.trans hrun) hstart
    have hlast : tokens.length ≤ k + 1 := by
      rw [hk.atEnd] at hend
      exact of_decide_eq_true hend
    exact hk.count.trans (Nat.min_eq_right hlast)

end Parser

end SqlFrontend

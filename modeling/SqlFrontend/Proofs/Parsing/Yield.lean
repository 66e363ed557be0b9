import Mathlib.Computability.Language
import Mathlib.Order.CompletePartialOrder
import SqlFrontend.Parsing.Production
import SqlFrontend.Proofs.Lexing.Kinds
import SqlFrontend.Proofs.Lexing.Tiling
import SqlFrontend.Proofs.Parsing.Likeness
import SqlFrontend.Proofs.Parsing.Run

/-!
# What productions yield

A production passes tokens and yields a value, or it fails. Here is said of a single run what the value
is like and which tokens are passed, with rules for putting productions together.

Results:
* `Phrase.skipHead`: what stands before a text in parentheses that is skipped.
* `Accepted`: the tokens that a production may pass without an error. Illegal ones are among them only
  in texts that are skipped.
* `Parser.Passes`: from one parser to another, such tokens are passed, and the pools stay fresh.
* `Production.Yields`: from every parser of a kind, a production passes to a parser, and yields a value,
  of another kind.
* `Yields.bind`, `Yields.loop`, `Yields.many`, `Yields.list`: the rules for putting productions
  together. `Yields.advance` asks for a proper token: what was read of the current token has to tell.
-/

open Computability

namespace SqlFrontend

/-! ## Tokens that may be passed -/

/-- Decides whether a kind is that of a token that is neither illegal nor the end of the text. -/
@[reducible] def TokenKind.isProper : TokenKind → Bool
  | .eof | .illegal => false
  | _ => true

/-- Kinds that are proper. -/
class TokenKind.Proper (kinds : List TokenKind) : Prop where
  isProper : ∀ k ∈ kinds, k.isProper

instance : TokenKind.Proper [] := ⟨nofun⟩

instance {k : TokenKind} {kinds : List TokenKind} [h : Certain k.isProper]
    [hs : TokenKind.Proper kinds] : TokenKind.Proper (k :: kinds) :=
  ⟨List.forall_mem_cons.2 ⟨h.holds, hs.isProper⟩⟩

/-- The tokens behind an opening parenthesis up to the one that closes it, with a number of others open
in between. -/
inductive Enclosed : ℕ → List Token → Prop
  | last {t : Token} : t.kind = .rightParen → Enclosed 0 [t]
  | opening {depth : ℕ} {t : Token} {ts : List Token} : t.kind = .leftParen →
      Enclosed (depth + 1) ts → Enclosed depth (t :: ts)
  | closing {depth : ℕ} {t : Token} {ts : List Token} : t.kind = .rightParen →
      Enclosed depth ts → Enclosed (depth + 1) (t :: ts)
  | other {depth : ℕ} {t : Token} {ts : List Token} : t.kind ≠ .eof → t.kind ≠ .leftParen →
      t.kind ≠ .rightParen → Enclosed depth ts → Enclosed depth (t :: ts)

/-! ## Texts that are skipped -/

namespace Phrase

/-- One token of which something is known. -/
def one (property : Token → Prop) : Language Token := {ts | ∃ t, property t ∧ ts = [t]}

/-- A token of a kind. -/
def mark (k : TokenKind) : Language Token := one fun t => t.kind = k

/-- A keyword. -/
def word (w : Keyword) : Language Token := mark (.keyword w)

/-- A name. -/
def name : Language Token := one fun t => t.isName

/-- A name with any number of qualifiers. -/
def qualifiedName : Language Token := name * (mark .dot * name)∗

/-- What stands behind an opening parenthesis up to the one that closes it. -/
def enclosed : Language Token := {ts | Enclosed 0 ts}

/-- A text in parentheses, whatever tokens are in it. -/
def group : Language Token := mark .leftParen * enclosed

/-- The words for a kind of objects that can be dropped. -/
def objectKind : Language Token :=
  one (fun t => t.kind ∈ [.keyword .TABLE, .keyword .DATABASE, .keyword .INDEX, .keyword .VIEW,
    .keyword .TRIGGER, .keyword .PROCEDURE, .keyword .FUNCTION, .keyword .SCHEMA]) +
  one (fun t => t.isWord "PROC") + word .MATERIALIZED * word .VIEW

/-- What names the first of the objects to remove. -/
def firstDropped : Language Token :=
  word .DROP * objectKind * (1 + word .IF * word .EXISTS) * qualifiedName

/-- What names the next of the objects to remove. A text in parentheses may follow the one before. -/
def nextDropped : Language Token := (1 + group) * mark .comma * qualifiedName

/-- The function whose values are tables. -/
def tableReturned : Language Token :=
  word .RETURNS * (1 + one fun t => t.literal.startsWith "@") * word .TABLE

/-- The words for a generated column. -/
def generated : Language Token :=
  word .GENERATED * (word .ALWAYS + word .BY * word .DEFAULT) * word .AS * word .IDENTITY

/-- The names of variables that are declared. -/
def declared : Language Token := word .DECLARE * name * (mark .comma * name)∗

/-- What stands before a text in parentheses that is skipped: the type of a function that gives tables, the
words for a generated column, the type of variables that hold tables, or what is dropped. -/
def skipHead : Language Token :=
  tableReturned + generated + declared * (1 + word .AS) * (1 + word .CONSTANT) * word .TABLE +
    firstDropped * nextDropped∗

end Phrase

/-- A token, with others before and behind it, stands in a text in parentheses that is skipped. -/
def Skipped (before : List Token) (t : Token) (behind : List Token) : Prop :=
  ∃ front inner inner' rest, before = front ++ inner ∧ behind = inner' ++ rest ∧
    front ∈ ⊤ * Phrase.skipHead * Phrase.mark .leftParen ∧ Enclosed 0 (inner ++ t :: inner')

/-- Tokens each of which is proper, or stands in a text that is skipped. -/
def Accepted (ts : List Token) : Prop :=
  ∀ before t behind, ts = before ++ t :: behind → t.kind.isProper ∨ Skipped before t behind

theorem Accepted.nil : Accepted [] := by
  intro before t behind h
  simp at h

/-- A proper token is accepted. -/
theorem Accepted.token {t : Token} (ht : t.kind.isProper) : Accepted [t] := by
  intro before u behind h
  obtain ⟨rfl, rfl, rfl⟩ : before = [] ∧ u = t ∧ behind = [] := by
    cases before with
    | nil => exact ⟨rfl, by cases h; exact ⟨rfl, rfl⟩⟩
    | cons v before => simp at h
  exact .inl ht

theorem Skipped.before {before behind : List Token} {t : Token} (h : Skipped before t behind)
    (more : List Token) : Skipped (more ++ before) t behind := by
  obtain ⟨_, inner, inner', rest, rfl, hbehind, ⟨_, ⟨front, -, head, hhead, rfl⟩, opening, hopening, rfl⟩,
    hinner⟩ := h
  refine ⟨more ++ (front ++ head ++ opening), inner, inner', rest, by simp, hbehind, ?_, hinner⟩
  exact ⟨_, ⟨more ++ front, trivial, head, hhead, rfl⟩, opening, hopening, by simp⟩

theorem Skipped.behind {before behind : List Token} {t : Token} (h : Skipped before t behind)
    (more : List Token) : Skipped before t (behind ++ more) := by
  obtain ⟨front, inner, inner', rest, hbefore, rfl, hrest⟩ := h
  exact ⟨front, inner, inner', rest ++ more, hbefore, by simp, hrest⟩

/-- In a text that is accepted, a token is proper or skipped, whatever is put behind the text. -/
theorem Accepted.or_skipped {ts before behind : List Token} {t : Token} (h : Accepted ts)
    (heq : ts = before ++ t :: behind) (more : List Token) :
    t.kind.isProper ∨ Skipped before t (behind ++ more) :=
  (h before t behind heq).imp_right fun hskipped => hskipped.behind more

theorem Accepted.append {ts us : List Token} (h : Accepted ts) (h' : Accepted us) :
    Accepted (ts ++ us) := by
  intro before t behind heq
  rcases List.append_eq_append_iff.1 heq with ⟨others, rfl, hus⟩ | ⟨others, hts, hbehind⟩
  · exact (h' others t behind hus).imp_right fun hskipped => hskipped.before ts
  · cases others with
    | nil =>
      rw [List.append_nil] at hts
      subst hts
      exact (h' [] t behind hbehind.symm).imp_right fun hskipped => by simpa using hskipped.before ts
    | cons u others =>
      obtain ⟨rfl, rfl⟩ := List.cons.inj hbehind
      exact h.or_skipped hts us

/-- A text in parentheses is accepted behind what it may be skipped behind. -/
theorem Accepted.group {ts group : List Token} (h : Accepted ts) (hhead : ts ∈ ⊤ * Phrase.skipHead)
    (hgroup : group ∈ Phrase.group) : Accepted (ts ++ group) := by
  intro before t behind heq
  obtain ⟨_, ⟨opening, hopening, rfl⟩, inner, hinner, rfl⟩ := hgroup
  have hproper : opening.kind.isProper := by rw [hopening]
  have hfront : ts ++ [opening] ∈ ⊤ * Phrase.skipHead * Phrase.mark .leftParen :=
    Language.append_mem_mul hhead ⟨opening, hopening, rfl⟩
  rcases List.append_eq_append_iff.1 heq with ⟨others, rfl, hothers⟩ | ⟨others, hts, hbehind⟩
  · cases others with
    | nil =>
      obtain ⟨rfl, rfl⟩ := List.cons.inj hothers
      exact .inl hproper
    | cons u others =>
      obtain ⟨rfl, rfl⟩ := List.cons.inj hothers
      exact .inr ⟨ts ++ [opening], others, behind, [], by simp, by simp, hfront, hinner⟩
  · cases others with
    | nil =>
      obtain ⟨rfl, rfl⟩ := List.cons.inj hbehind
      exact .inl hproper
    | cons u others =>
      obtain ⟨rfl, rfl⟩ := List.cons.inj hbehind
      exact h.or_skipped hts _

/-- A token whose literal looks like that of a variable is proper. -/
def Token.Spelled (t : Token) : Prop := t.literal.startsWith "@" → t.kind.isProper

theorem Token.spelled_eof (s : Span) : Token.Spelled ⟨.eof, "", s⟩ := by
  intro h
  rw [String.startsWith_string_iff] at h
  simp at h

theorem Lexer.next_spelled (lexer : Lexer) : lexer.next.1.Spelled := by
  obtain ⟨hillegal, hend⟩ := lexer.next_literal
  intro h
  rw [String.startsWith_string_iff] at h
  cases hk : lexer.next.1.kind with
  | illegal =>
    obtain ⟨text, htext⟩ := hillegal hk
    rw [htext] at h
    simp at h
  | eof =>
    rw [hend hk] at h
    simp at h
  | _ => rfl

namespace Parser

/-! ## Parsers -/

/-- Time is not limited, and an error ends the reading of a statement. -/
structure Steady (p : Parser) : Prop where
  live : p.expired = false
  running : p.cancelled = false
  plain : p.recovering = false

/-- The pools hand out new nodes, and the tokens at hand are those of a lexer. -/
structure Clean (p : Parser) : Prop where
  pools : p.pools.IsFresh
  current : p.current.Spelled
  peek : p.peek.Spelled

/-- The way from one parser to another, over tokens that are accepted. -/
structure Passes (p q : Parser) : Prop where
  clean : q.Clean
  recovering : q.recovering = p.recovering
  tokens : p.Steady → q.Steady ∧ ∃ passed, Accepted passed ∧ p.upcoming = passed ++ q.upcoming

variable {p q r : Parser}

theorem Passes.refl (h : p.Clean) : Passes p p := ⟨h, rfl, fun hs => ⟨hs, [], .nil, rfl⟩⟩

theorem Passes.trans (h : Passes p q) (h' : Passes q r) : Passes p r := by
  refine ⟨h'.clean, h'.recovering.trans h.recovering, fun hs => ?_⟩
  obtain ⟨hq, passed, haccepted, heq⟩ := h.tokens hs
  obtain ⟨hr, passed', haccepted', heq'⟩ := h'.tokens hq
  refine ⟨hr, passed ++ passed', haccepted.append haccepted', ?_⟩
  rw [heq, heq', List.append_assoc]

/-- Nothing is passed where only the record changes. -/
theorem Passes.update (hp : p.Clean) (hpools : q.pools.IsFresh) (hlexer : q.lexer = p.lexer)
    (hcurrent : q.current = p.current) (hpeek : q.peek = p.peek) (hexpired : q.expired = p.expired)
    (hcancelled : q.cancelled = p.cancelled) (hrecovering : q.recovering = p.recovering) :
    Passes p q := by
  refine ⟨⟨hpools, hcurrent ▸ hp.current, hpeek ▸ hp.peek⟩, hrecovering, fun hs => ?_⟩
  refine ⟨⟨hexpired.trans hs.live, hcancelled.trans hs.running, hrecovering.trans hs.plain⟩, [],
    .nil, ?_⟩
  rw [upcoming, upcoming, hlexer, hcurrent, hpeek]
  rfl

theorem Clean.cancel (hp : p.Clean) : p.cancel.Clean := by
  unfold Parser.cancel
  split
  · exact hp
  · exact ⟨hp.pools, Token.spelled_eof _, Token.spelled_eof _⟩

theorem cancel_recovering (p : Parser) : p.cancel.recovering = p.recovering := by
  unfold Parser.cancel
  split <;> rfl

theorem Clean.advance (hp : p.Clean) : p.advance.Clean := by
  by_cases hc : p.cancelled
  · rw [advance_of_cancelled hc]; exact hp
  by_cases he : p.expired
  · rw [advance_of_expired he]; exact hp.cancel
  · rw [advance_of_live hc he, countCurrent_eq]
    exact ⟨hp.pools, hp.peek, Lexer.next_spelled _⟩

theorem advance_recovering (p : Parser) : p.advance.recovering = p.recovering :=
  (Reaches.advance p).recovering

theorem Steady.advance (hp : p.Steady) : p.advance.Steady := by
  obtain ⟨hlive, hrunning, hplain⟩ := hp
  rw [advance_of_live (by simp [hrunning]) (by simp [hlive]), countCurrent_eq]
  exact ⟨hlive, hrunning, hplain⟩

/-- A parser that is steady was steady a token before, and the next token became the current one. -/
theorem Steady.of_advance (h : p.advance.Steady) : p.Steady ∧ p.advance.current = p.peek := by
  by_cases hc : p.cancelled
  · rw [advance_of_cancelled hc] at h
    exact absurd hc (by simp [h.running])
  by_cases he : p.expired
  · rw [advance_of_expired he] at h
    have hcancel : p.cancel.cancelled = true := by rw [Parser.cancel, if_neg hc]
    rw [h.running] at hcancel
    cases hcancel
  · rw [advance_of_live hc he, countCurrent_eq] at h ⊢
    exact ⟨⟨h.live, h.running, h.plain⟩, rfl⟩

theorem not_atEnd_of_isProper (h : p.current.kind.isProper) : ¬p.atEnd := by
  intro he
  rw [atEnd, Token.isEof, beq_iff_eq] at he
  rw [he] at h
  cases h

theorem upcoming_advance_of_steady (hp : p.Steady) (h : ¬p.atEnd) :
    p.upcoming = p.current :: p.advance.upcoming :=
  upcoming_advance h (by simp [hp.running]) (by simp [hp.live])

theorem Steady.upcoming_tail {t u : Token} {rest : List Token} (hp : p.Steady)
    (h : p.upcoming = t :: u :: rest) : p.advance.upcoming = u :: rest := by
  have hmore : ¬p.atEnd := by
    intro hend
    rw [upcoming_of_atEnd hend] at h
    cases h
  exact (List.cons.inj ((upcoming_advance_of_steady hp hmore).symm.trans h)).2

/-- A proper token is passed. -/
theorem Passes.advance (hp : p.Clean) (h : p.Steady → p.current.kind.isProper) :
    Passes p p.advance := by
  refine ⟨hp.advance, advance_recovering p, fun hs => ⟨hs.advance, [p.current], ?_, ?_⟩⟩
  · exact .token (h hs)
  · exact upcoming_advance_of_steady hs (not_atEnd_of_isProper (h hs))

theorem Clean.skipWhile (hp : p.Clean) (condition : Parser → Bool) :
    (p.skipWhile condition).Clean ∧ (p.skipWhile condition).recovering = p.recovering := by
  fun_induction Parser.skipWhile p condition with
  | case1 p _ _ ih =>
    obtain ⟨hclean, hrecovering⟩ := ih hp.advance
    exact ⟨hclean, hrecovering.trans (advance_recovering p)⟩
  | case2 p => exact ⟨hp.advance, advance_recovering p⟩
  | case3 p => exact ⟨hp, rfl⟩

theorem Passes.skipWhile {condition : Parser → Bool} (hp : p.Clean)
    (h : ∀ x : Parser, condition x → x.current.kind.isProper) :
    Passes p (p.skipWhile condition) := by
  fun_induction Parser.skipWhile p condition with
  | case1 p hc _ ih => exact (Passes.advance hp fun _ => h p hc).trans (ih hp.advance)
  | case2 p hc => exact .advance hp fun _ => h p hc
  | case3 p => exact .refl hp

theorem isProper_of_isWord {t : Token} {word : String} (h : t.isWord word) : t.kind.isProper := by
  rw [Token.isWord, Bool.and_eq_true, beq_iff_eq] at h
  rw [h.1]

theorem isProper_of_atBatchSeparator (h : p.atBatchSeparator) : p.current.kind.isProper := by
  unfold atBatchSeparator isBatchSeparator at h
  split at h
  · exact isProper_of_isWord h
  · cases h

theorem isProper_of_isName {t : Token} (h : t.isName) : t.kind.isProper := by
  unfold Token.isName at h
  split at h
  · next hk => rw [hk]
  · next hk => rw [hk]
  · next hk => rw [hk]
  · cases h

theorem isProper_of_atTrailingName (h : p.atTrailingName) : p.current.kind.isProper := by
  simp only [atTrailingName, Bool.and_eq_true] at h
  have hidentifier := h.1.1.1
  unfold Token.isIdentifier at hidentifier
  split at hidentifier
  · next hk => rw [hk]
  · next hk => rw [hk]
  · cases hidentifier

theorem Passes.skipSemicolons (hp : p.Clean) : Passes p p.skipSemicolons :=
  .skipWhile hp fun x h => by
    rw [beq_iff_eq] at h
    rw [h]

theorem Passes.skipSeparators (hp : p.Clean) : Passes p p.skipSeparators :=
  .skipWhile hp fun x h => by
    simp only [Bool.and_eq_true, Bool.or_eq_true, beq_iff_eq] at h
    rcases h.2 with hk | hs
    · rw [hk]
    · exact isProper_of_atBatchSeparator hs

theorem Clean.synchronize (hp : p.Clean) :
    p.synchronize.Clean ∧ p.synchronize.recovering = p.recovering := by
  obtain ⟨hclean, hrecovering⟩ := hp.skipWhile fun p => !p.atTerminator
  obtain ⟨hclean', hrecovering'⟩ :=
    hclean.skipWhile fun p => !p.cancelled && (p.current.kind == .semicolon || p.atBatchSeparator)
  exact ⟨hclean', hrecovering'.trans hrecovering⟩

theorem Clean.record (hp : p.Clean) (e : ParseError) :
    (p.record e).Clean ∧ (p.record e).recovering = p.recovering := by
  unfold Parser.record
  split
  · exact ⟨hp, rfl⟩
  · exact ⟨⟨hp.pools, hp.current, hp.peek⟩, rfl⟩

theorem clean_ofSource (source : String) (d : Dialect) (expired : Bool) {pools : Pools}
    (h : pools.IsFresh) : (ofSource source d expired pools).Clean := by
  rw [ofSource_eq, countCurrent_eq]
  exact ⟨h, Lexer.next_spelled _, Lexer.next_spelled _⟩

theorem Clean.nested (hp : p.Clean) (body : String) : (p.nested body).Clean :=
  have h := clean_ofSource body p.dialect p.expired hp.pools
  ⟨h.pools, h.current, h.peek⟩

end Parser

/-! ## Productions -/

namespace Production

/-- What a run of a production comes to: it passes tokens and yields a value of a kind, or fails. -/
inductive Yield {α : Type} (p : Parser) (Q : α → Parser → Prop) :
    EStateM.Result ParseError Parser α → Prop
  | ok {a : α} {q : Parser} (passes : p.Passes q) (value : Q a q) : Yield p Q (.ok a q)
  | error {e : ParseError} {q : Parser} (clean : q.Clean) (recovering : q.recovering = p.recovering) :
      Yield p Q (.error e q)

/-- From every parser of the kind `P`, a production yields values and parsers of the kind `Q`. -/
def Yields {α : Type} (P : Parser → Prop) (m : Production α) (Q : α → Parser → Prop) : Prop :=
  ∀ p : Parser, p.Clean → P p → Yield p Q (m p)

variable {α β σ : Type} {P : Parser → Prop} {m n : Production α} {Q : α → Parser → Prop}

theorem Yield.trans {p q : Parser} {r : EStateM.Result ParseError Parser α} (h : p.Passes q)
    (h' : Yield q Q r) : Yield p Q r := by
  cases h' with
  | ok hpasses hvalue => exact .ok (h.trans hpasses) hvalue
  | error hclean hrecovering => exact .error hclean (hrecovering.trans h.recovering)

theorem Yield.mono {p : Parser} {r : EStateM.Result ParseError Parser α} {R : α → Parser → Prop}
    (h : Yield p Q r) (hQ : ∀ a q, Q a q → R a q) : Yield p R r := by
  cases h with
  | ok hpasses hvalue => exact .ok hpasses (hQ _ _ hvalue)
  | error hclean hrecovering => exact .error hclean hrecovering

/-- What is asked of a parser holds of all parsers. -/
class Sure (P : Parser → Prop) : Prop where
  holds : ∀ p, P p

instance : Sure fun _ => True := ⟨fun _ => trivial⟩

/-- What is asked of a parser tells that one of its two tokens is proper. -/
class Tells (f : Parser → TokenKind) (P : Parser → Prop) : Prop where
  isProper : ∀ p, P p → p.Steady → (f p).isProper

section

variable {f : Parser → TokenKind} {P Q : Parser → Prop}

instance {k : TokenKind} [h : Certain k.isProper] : Tells f fun p => f p = k :=
  ⟨fun _ hp _ => hp ▸ h.holds⟩

instance : Tells f fun p => (f p).isProper := ⟨fun _ hp _ => hp⟩

instance : Tells f fun p => p.Steady → (f p).isProper := ⟨fun _ hp => hp⟩

instance [h : Tells f P] : Tells f fun p => P p ∧ Q p := ⟨fun p hp => h.isProper p hp.1⟩

instance [h : Tells f Q] : Tells f fun p => P p ∧ Q p := ⟨fun p hp => h.isProper p hp.2⟩

instance [h : Tells f P] : Tells f fun p => true = true → P p := ⟨fun p hp => h.isProper p (hp rfl)⟩

end

namespace Yields

/-! ## Sequences and choices -/

theorem mono {R : α → Parser → Prop} (h : Yields P m Q) (hQ : ∀ a p, Q a p → R a p) :
    Yields P m R :=
  fun p hp hP => (h p hp hP).mono hQ

/-- What a production yields from every parser. -/
theorem anywhere (h : Yields (fun _ => True) m Q) : Yields P m Q := fun p hp _ => h p hp trivial

/-- A production whose value does not matter. -/
theorem quiet (h : Yields P m Q) : Yields P m fun _ _ => True := h.mono fun _ _ _ => trivial

theorem ret {a : α} (h : ∀ p, P p → Q a p) : Yields P (Pure.pure a) Q :=
  fun p hp hP => .ok (.refl hp) (h p hP)

/-- A result of which nothing has to be known. -/
theorem stay {a : α} [h : Sure (Q a)] : Yields P (Pure.pure a) Q := ret fun p _ => h.holds p

theorem bind {R : α → Parser → Prop} {f : α → Production β} {S : β → Parser → Prop}
    (hm : Yields P m R) (hf : ∀ a, Yields (R a) (f a) S) : Yields P (m >>= f) S := by
  intro p hp hP
  have hrun := hm p hp hP
  change Yield p S (EStateM.bind m f p)
  rw [EStateM.bind]
  revert hrun
  generalize m p = r
  intro hrun
  cases hrun with
  | ok hpasses hvalue => exact (hf _ _ hpasses.clean hvalue).trans hpasses
  | error hclean hrecovering => exact .error hclean hrecovering

/-- A sequence in which only the value of the first production matters. -/
theorem seq {G : α → Prop} {f : α → Production β} {S : β → Parser → Prop}
    (hm : Yields P m fun a _ => G a) (hf : ∀ a, G a → Yields (fun _ => True) (f a) S) :
    Yields P (m >>= f) S :=
  hm.bind fun a p hp ha => hf a ha p hp trivial

theorem map {f : α → β} {S : β → Parser → Prop} (h : Yields P m fun a p => S (f a) p) :
    Yields P (f <$> m) S := by
  rw [map_eq_pure_bind]
  exact h.bind fun _ => .ret fun _ => id

theorem mapQuiet {f : α → β} (h : Yields P m Q) : Yields P (f <$> m) fun _ _ => True :=
  .map h.quiet

theorem discard (h : Yields P m Q) : Yields P (Functor.discard m) fun _ _ => True := h.mapQuiet

/-- A value that is at hand. -/
theorem retThen {a : α} {f : α → Production β} {S : β → Parser → Prop}
    (h : Yields (fun _ => True) (f a) S) : Yields P (Pure.pure a >>= f) S :=
  .seq (G := fun b => b = a) (.ret fun _ _ => rfl) fun _ hb => hb ▸ h

theorem ite {c : Prop} [Decidable c] (hthen : c → Yields P m Q) (helse : ¬c → Yields P n Q) :
    Yields P (if c then m else n) Q := by
  by_cases hc : c
  · rw [if_pos hc]; exact hthen hc
  · rw [if_neg hc]; exact helse hc

theorem bindIf {t : Production Bool} {R : Bool → Parser → Prop} (ht : Yields P t R)
    (hthen : Yields (R true) m Q) (helse : Yields (R false) n Q) :
    Yields P (t >>= fun x => if x = true then m else n) Q := by
  refine ht.bind fun x => .ite (fun hx => ?_) fun hx => ?_
  · rw [hx]; exact hthen
  · rw [Bool.not_eq_true] at hx
    rw [hx]; exact helse

/-- A choice with more behind it. -/
theorem bindIfThen {t : Production Bool} {R : Bool → Parser → Prop} {G : α → Prop}
    {f : α → Production β} {S : β → Parser → Prop} (ht : Yields P t R)
    (hthen : Yields (R true) m fun a _ => G a) (helse : Yields (R false) n fun a _ => G a)
    (hf : ∀ a, G a → Yields (fun _ => True) (f a) S) :
    Yields P (t >>= fun x => if x = true then m >>= f else n >>= f) S :=
  .bindIf ht (.seq hthen hf) (.seq helse hf)

/-- A choice of doing something only if a test does not pass, with more behind it. -/
theorem bindUnless {t : Production Bool} {R : Bool → Parser → Prop} {n : Production Unit}
    {f : Unit → Production β} {S : β → Parser → Prop} (ht : Yields P t R)
    (helse : Yields (R false) n fun _ _ => True) (hf : Yields (fun _ => True) (f ()) S) :
    Yields P (t >>= fun x => if x = true then f () else n >>= f) S :=
  .bindIf ht hf.anywhere (.bind helse fun _ => hf)

/-! ## Errors -/

theorem expected {what : String} : Yields P (Production.expected what : Production α) Q :=
  fun _ hp _ => .error hp rfl

theorem fail {cause : ParseCause} {place : Span} :
    Yields P (Production.fail cause place : Production α) Q :=
  fun _ hp _ => .error hp rfl

/-- Nothing comes behind an error. -/
theorem expectedThen {what : String} {f : α → Production β} {S : β → Parser → Prop} :
    Yields P (Production.expected what >>= f) S :=
  .seq (G := fun _ => False) .expected fun _ => False.elim

theorem failThen {cause : ParseCause} {place : Span} {f : α → Production β}
    {S : β → Parser → Prop} : Yields P (Production.fail cause place >>= f) S :=
  .seq (G := fun _ => False) .fail fun _ => False.elim

/-! ## Reading a parser -/

/-- A production that only looks at its parser. -/
theorem read {f : Parser → α} (hm : ∀ p, m p = .ok (f p) p) (h : ∀ p, P p → Q (f p) p) :
    Yields P m Q := by
  intro p hp hP
  rw [hm]
  exact .ok (.refl hp) (h p hP)

theorem get : Yields P (MonadState.get : Production Parser) fun q p => P p ∧ q = p :=
  read (f := id) (fun _ => rfl) fun _ h => ⟨h, rfl⟩

theorem current : Yields P Production.current fun t p => P p ∧ p.current = t ∧ t.Spelled :=
  fun _ hp hP => .ok (.refl hp) ⟨hP, rfl, hp.current⟩

theorem kind : Yields P Production.kind fun k p => P p ∧ p.current.kind = k :=
  read (f := fun p => p.current.kind) (fun _ => rfl) fun _ h => ⟨h, rfl⟩

theorem peekKind : Yields P Production.peekKind fun k p => P p ∧ p.peek.kind = k :=
  read (f := fun p => p.peek.kind) (fun _ => rfl) fun _ h => ⟨h, rfl⟩

theorem span : Yields P Production.span fun _ p => P p :=
  read (f := fun p => p.current.span) (fun _ => rfl) fun _ => id

theorem dialect : Yields P Production.dialect fun _ p => P p :=
  read (f := Parser.dialect) (fun _ => rfl) fun _ => id

theorem atTerminator : Yields P Production.atTerminator fun _ p => P p :=
  read (f := Parser.atTerminator) (fun _ => rfl) fun _ => id

theorem require {feature : Feature} {place : Span} :
    Yields P (Production.require feature place) fun _ p => P p := by
  exact .bind .dialect fun d => .ite (fun _ => .ret fun _ => id) fun _ => .fail

theorem check {k : TokenKind} :
    Yields P (Production.check k) fun b p => P p ∧ (b = true → p.current.kind = k) :=
  read (f := fun p => p.current.kind == k) (fun _ => rfl) fun _ h => ⟨h, beq_iff_eq.1⟩

theorem checkPeek {k : TokenKind} :
    Yields P (Production.checkPeek k) fun b p => P p ∧ (b = true → p.peek.kind = k) :=
  read (f := fun p => p.peek.kind == k) (fun _ => rfl) fun _ h => ⟨h, beq_iff_eq.1⟩

theorem checkKeyword {word : Keyword} : Yields P (Production.checkKeyword word)
    fun b p => P p ∧ (b = true → p.current.kind = .keyword word) := check

theorem peekKeyword {word : Keyword} : Yields P (Production.peekKeyword word)
    fun b p => P p ∧ (b = true → p.peek.kind = .keyword word) := checkPeek

theorem checkKeywords {first second : Keyword} : Yields P (Production.checkKeywords first second)
    fun b p => P p ∧ (b = true →
      p.current.kind = .keyword first ∧ p.peek.kind = .keyword second) := by
  refine .bindIf .checkKeyword (peekKeyword.mono ?_) (.ret ?_)
  · exact fun b p h => ⟨h.1.1, fun hb => ⟨h.1.2 rfl, h.2 hb⟩⟩
  · exact fun p h => ⟨h.1, nofun⟩

theorem checkWord {word : String} : Yields P (Production.checkWord word)
    fun b p => P p ∧ (b = true → p.current.kind.isProper) :=
  read (f := fun p => p.current.isWord word) (fun _ => rfl) fun _ h =>
    ⟨h, Parser.isProper_of_isWord⟩

theorem atName : Yields P Production.atName
    fun b p => P p ∧ (b = true → p.current.kind.isProper) :=
  read (f := fun p => p.current.isName) (fun _ => rfl) fun _ h => ⟨h, Parser.isProper_of_isName⟩

theorem peekIsName : Yields P Production.peekIsName
    fun b p => P p ∧ (b = true → p.peek.kind.isProper) :=
  read (f := fun p => p.peek.isName) (fun _ => rfl) fun _ h => ⟨h, Parser.isProper_of_isName⟩

/-! ## Passing tokens -/

theorem pass (h : ∀ p, P p → p.Steady → p.current.kind.isProper) :
    Yields P Production.advance fun _ _ => True :=
  fun p hp hP => .ok (.advance hp (h p hP)) trivial

theorem advance [h : Tells (fun p => p.current.kind) P] :
    Yields P Production.advance fun _ _ => True := pass h.isProper

/-- Behind a proper token stands another one, if it was seen there. -/
theorem passTo (h : ∀ p, P p → p.Steady → p.current.kind.isProper ∧ p.peek.kind.isProper) :
    Yields P Production.advance fun _ p => p.Steady → p.current.kind.isProper := by
  refine fun p hp hP => .ok (.advance hp fun hs => (h p hP hs).1) fun hs => ?_
  obtain ⟨hsteady, hcurrent⟩ := hs.of_advance
  rw [hcurrent]
  exact (h p hP hsteady).2

theorem advanceTo [h : Tells (fun p => p.current.kind) P] [h' : Tells (fun p => p.peek.kind) P] :
    Yields P Production.advance fun _ p => p.Steady → p.current.kind.isProper :=
  passTo fun p hp hs => ⟨h.isProper p hp hs, h'.isProper p hp hs⟩

theorem take (h : ∀ p, P p → p.Steady → p.current.kind.isProper) :
    Yields P Production.takeLiteral fun _ _ => True :=
  .bind .current fun _ => .bind (.pass fun p hp => h p hp.1) fun _ => .stay

theorem takeLiteral [h : Tells (fun p => p.current.kind) P] :
    Yields P Production.takeLiteral fun _ _ => True := take h.isProper

theorem consumeIf {t : Production Bool} {R : Bool → Parser → Prop} (ht : Yields P t R)
    (h : ∀ p, R true p → p.current.kind.isProper) :
    Yields P (Production.consumeIf t) fun _ _ => True :=
  .bindIf ht (.bind (.pass fun p hp _ => h p hp) fun _ => .stay) .stay

theorem consume {k : TokenKind} [h : Certain k.isProper] :
    Yields P (Production.consume k) fun _ _ => True :=
  .consumeIf .check fun _ hk => by rw [hk.2 rfl]; exact h.holds

theorem consumeKeyword {word : Keyword} :
    Yields P (Production.consumeKeyword word) fun _ _ => True :=
  .consumeIf .checkKeyword fun _ h => by rw [h.2 rfl]

theorem consumeWord {word : String} : Yields P (Production.consumeWord word) fun _ _ => True :=
  .consumeIf .checkWord fun _ h => h.2 rfl

theorem consumeAny {kinds : List TokenKind} [hs : TokenKind.Proper kinds] :
    Yields P (Production.consumeAny kinds) fun _ _ => True := by
  have ht : Yields P (do return kinds.contains (← Production.kind))
      fun b p => b = true → p.current.kind ∈ kinds :=
    read (f := fun p => kinds.contains p.current.kind) (fun _ => rfl) fun _ _ => List.contains_iff_mem.1
  exact .consumeIf ht fun p h => hs.isProper _ (h rfl)

theorem consumeKeywords {first second : Keyword} :
    Yields P (Production.consumeKeywords first second) fun _ _ => True :=
  .bindIf .checkKeywords (.bind .advanceTo fun _ => .bind .advance fun _ => .stay) .stay

theorem skipKeyword {word : Keyword} : Yields P (Production.skipKeyword word) fun _ _ => True :=
  .discard .consumeKeyword

theorem skipWord {word : String} : Yields P (Production.skipWord word) fun _ _ => True :=
  .discard .consumeWord

theorem expectIf {t : Production Bool} {what : String} (ht : Yields P t fun _ _ => True) :
    Yields P (do unless ← t do Production.expected what) fun _ _ => True :=
  .bindIf ht .stay .expected

theorem expect {k : TokenKind} [Certain k.isProper] :
    Yields P (Production.expect k) fun _ _ => True := .expectIf .consume

theorem expectKeyword {word : Keyword} :
    Yields P (Production.expectKeyword word) fun _ _ => True := .expectIf .consumeKeyword

theorem expectWord {word : String} : Yields P (Production.expectWord word) fun _ _ => True :=
  .expectIf .consumeWord

theorem name : Yields P Production.name fun _ _ => True :=
  .bindIf .atName .takeLiteral .expected

theorem trailingName? : Yields P Production.trailingName? fun _ _ => True := by
  refine .bind .get fun q => .ite (fun hq => ?_) fun _ => .stay
  refine .bind (.take fun p h _ => ?_) fun _ => .stay
  rw [← h.2]
  exact Parser.isProper_of_atTrailingName hq

theorem skipSemicolons : Yields P Production.skipSemicolons fun _ _ => True :=
  fun _ hp _ => .ok (.skipSemicolons hp) trivial

/-! ## Repetition -/

/-- What a round of a loop comes to: a state to go on with, or the value. -/
def Round (I : σ → Prop) (Q : α → Parser → Prop) : Step σ α → Parser → Prop
  | .more s, _ => I s
  | .done a, p => Q a p

instance {a : α} [h : Sure (Q a)] {I : σ → Prop} : Sure (Round I Q (.done a)) := ⟨h.holds⟩

instance {s : σ} : Sure (Round (fun _ => True) Q (.more s)) := ⟨fun _ => trivial⟩

/-- An invariant of the rounds holds when the loop ends. -/
theorem loop {I : σ → Prop} {round : σ → Production (Step σ α)} {s : σ}
    (hround : ∀ s, I s → Yields (fun _ => True) (round s) (Round I Q)) (h : I s) :
    Yields P (Production.loop round s) Q := by
  intro p hp hP
  clear hP
  induction hn : p.remaining using Nat.strong_induction_on generalizing p s with
  | _ n ih =>
    subst hn
    have hrun := hround s h p hp trivial
    rw [Production.loop.eq_def]
    revert hrun
    generalize round s p = r
    intro hrun
    cases hrun with
    | error hclean hrecovering => exact .error hclean hrecovering
    | @ok step q hpasses hvalue =>
      cases step with
      | done a => exact .ok hpasses hvalue
      | more s' =>
        dsimp only
        by_cases hless : q.remaining < p.remaining
        · rw [if_pos hless]
          exact (ih _ hless hvalue q hpasses.clean rfl).trans hpasses
        · rw [if_neg hless]
          exact .error hpasses.clean hpasses.recovering

/-- The items that are collected, and where the collecting ends. -/
theorem manyTo {item? : Production (Option α)} {G : α → Prop} {R : Parser → Prop}
    (h : Yields (fun _ => True) item? fun item p => item.elim (R p) G) :
    Yields P (Production.many item?) fun items p => (∀ a ∈ items, G a) ∧ R p := by
  refine .loop (I := fun items => ∀ a ∈ items, G a) (fun items hitems => ?_) nofun
  refine h.bind fun item => ?_
  cases item with
  | none => exact .ret fun p hp => ⟨fun a ha => hitems a (List.mem_reverse.1 ha), hp⟩
  | some a => exact .ret fun p ha => List.forall_mem_cons.2 ⟨ha, hitems⟩

theorem many {item? : Production (Option α)} {G : α → Prop}
    (h : Yields (fun _ => True) item? fun item _ => ∀ a ∈ item, G a) :
    Yields P (Production.many item?) fun items _ => ∀ a ∈ items, G a := by
  have hitem : Yields (fun _ => True) item? fun item _ => item.elim True G :=
    h.mono fun item _ hitem => by cases item <;> simp_all
  exact (manyTo hitem).mono fun _ _ => And.left

/-- An item that is there if its value is. -/
theorem mapSome {G : α → Prop} (h : Yields P m fun a _ => G a) :
    Yields P (some <$> m) fun item _ => ∀ a ∈ item, G a :=
  .map (h.mono fun _ _ ha _ hb => Option.mem_some_iff.1 hb ▸ ha)

/-- An item that is not there. -/
theorem retNone {G : α → Prop} :
    Yields P (Pure.pure none) fun (item : Option α) _ => ∀ a ∈ item, G a :=
  .ret fun _ _ _ ha => (Option.not_mem_none _ ha).elim

theorem list {item : Production α} {G : α → Prop}
    (h : ∀ {P : Parser → Prop}, Yields P item fun a _ => G a) :
    Yields P (Production.list item) fun items _ => items ≠ [] ∧ ∀ a ∈ items, G a := by
  refine h.seq fun first hfirst => .seq (G := fun rest => ∀ a ∈ rest, G a) (.many ?_) ?_
  · exact .bindIf .consume h.mapSome .retNone
  · intro rest hrest
    exact .ret fun _ _ => ⟨List.cons_ne_nil _ _, List.forall_mem_cons.2 ⟨hfirst, hrest⟩⟩

theorem behind {word : Keyword} {item : Production α} {G : α → Prop}
    (h : Yields (fun _ => True) item fun a _ => G a) :
    Yields P (Production.behind word item) fun item _ => ∀ a ∈ item, G a :=
  .bindIf .consumeKeyword h.mapSome .retNone

theorem inParens {item : Production α} {G : α → Prop}
    (h : Yields (fun _ => True) item fun a _ => G a) :
    Yields P (Production.inParens item) fun a _ => G a :=
  .bind .expect fun _ => .seq h fun _ ha => .bind .expect fun _ => .ret fun _ _ => ha

/-! ## Errors that end no list, and bodies of routines -/

theorem recovering {G : α → Prop} (h : Yields (fun _ => True) m fun a _ => G a) :
    Yields P (Production.recovering m) fun item _ => ∀ a ∈ item, G a := by
  intro p hp _
  have hrun := h p hp trivial
  rw [Production.recovering]
  revert hrun
  generalize m p = r
  intro hrun
  cases hrun with
  | ok hpasses hvalue => exact .ok hpasses fun _ hb => Option.mem_some_iff.1 hb ▸ hvalue
  | @error e q hclean hrecovering =>
    dsimp only
    split
    · next hgoes =>
      obtain ⟨hrecord, hrecord'⟩ := hclean.record e
      obtain ⟨hsync, hsync'⟩ := hrecord.synchronize
      have hsame := hsync'.trans (hrecord'.trans hrecovering)
      -- no parser that goes on behind errors is steady
      refine .ok ⟨hsync, hsame, fun hs => ?_⟩ fun _ hb => (Option.not_mem_none _ hb).elim
      rw [hrecovering, hs.plain] at hgoes
      cases hgoes
    · exact .error hclean hrecovering

theorem inRoutine {G : α → Prop} (h : Yields (fun _ => True) m fun a _ => G a) :
    Yields P (Production.inRoutine m) fun a _ => G a := by
  intro p hp _
  have hdeeper : p.Passes { p with routineDepth := p.routineDepth + 1 } :=
    .update hp hp.pools rfl rfl rfl rfl rfl rfl
  have hrun := h _ hdeeper.clean trivial
  rw [Production.inRoutine]
  revert hrun
  generalize m { p with routineDepth := p.routineDepth + 1 } = r
  intro hrun
  cases hrun with
  | @ok a q hpasses hvalue =>
    have hback : q.Passes { q with routineDepth := q.routineDepth - 1 } :=
      .update hpasses.clean hpasses.clean.pools rfl rfl rfl rfl rfl rfl
    exact .ok ((hdeeper.trans hpasses).trans hback) hvalue
  | @error e q hclean hrecovering =>
    exact .error ⟨hclean.pools, hclean.current, hclean.peek⟩ hrecovering

/-! ## Nodes from pools -/

/-- What is taken from a pool leaves the pools fresh. -/
theorem modifyPools (node : Pools → α) (change : Pools → Pools) {G : α → Prop}
    (hm : ∀ p, m p = .ok (node p.pools) { p with pools := change p.pools })
    (hG : ∀ pools : Pools, pools.IsFresh → G (node pools))
    (hchange : ∀ pools : Pools, pools.IsFresh → (change pools).IsFresh) :
    Yields P m fun a _ => G a := by
  intro p hp _
  rw [hm]
  exact .ok (.update hp (hchange _ hp.pools) rfl rfl rfl rfl rfl rfl) (hG _ hp.pools)

theorem acquireSelect : Yields P Production.acquireSelect fun node _ => node = Select.fresh :=
  modifyPools (fun pools => pools.select.acquire.1)
    (fun pools => { pools with select := pools.select.acquire.2 }) (fun _ => rfl)
    (fun _ h => NodePool.acquire_eq_fresh h.select)
    fun _ h => ⟨NodePool.acquire_isFresh h.select, h.binary, h.column, h.join⟩

theorem acquireBinary : Yields P Production.acquireBinary fun _ _ => True :=
  modifyPools (fun pools => pools.binary.acquire.1)
    (fun pools => { pools with binary := pools.binary.acquire.2 }) (fun _ => rfl)
    (fun _ _ => trivial)
    fun _ h => ⟨h.select, NodePool.acquire_isFresh h.binary, h.column, h.join⟩

theorem acquireColumn : Yields P Production.acquireColumn fun _ _ => True :=
  modifyPools (fun pools => pools.column.acquire.1)
    (fun pools => { pools with column := pools.column.acquire.2 }) (fun _ => rfl)
    (fun _ _ => trivial)
    fun _ h => ⟨h.select, h.binary, NodePool.acquire_isFresh h.column, h.join⟩

theorem acquireJoin : Yields P Production.acquireJoin fun node _ => node = Join.fresh :=
  modifyPools (fun pools => pools.join.acquire.1)
    (fun pools => { pools with join := pools.join.acquire.2 }) (fun _ => rfl)
    (fun _ h => NodePool.acquire_eq_fresh h.join)
    fun _ h => ⟨h.select, h.binary, h.column, NodePool.acquire_isFresh h.join⟩

theorem onFailure {change : Pools → Pools} (h : Yields P m Q)
    (hchange : ∀ pools : Pools, pools.IsFresh → (change pools).IsFresh) :
    Yields P (Production.onFailure m change) Q := by
  intro p hp hP
  have hrun := h p hp hP
  rw [Production.onFailure]
  revert hrun
  generalize m p = r
  intro hrun
  cases hrun with
  | ok hpasses hvalue => exact .ok hpasses hvalue
  | error hclean hrecovering =>
    exact .error ⟨hchange _ hclean.pools, hclean.current, hclean.peek⟩ hrecovering

end Yields

end Production

end SqlFrontend

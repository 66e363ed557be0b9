import SqlFrontend.Proofs.Parsing.Course
import SqlFrontend.Tree.Literal

/-!
# Quoted texts

A text between quotes, in which every closing quote is written twice, is read as that text, and so is a
text between two equal tags that ends at the first repetition of its tag. The runs of quotes in it, and
parts of tags, do not matter.

Results:
* `Cursor.unquote?_doubleQuotes`, `Cursor.untilRun_first`: where quoting ends, and what it was made of.
* `Lexer.reads_string`, `reads_quotedIdentifier`, `reads_dollarQuote`: what every lexer reads there.
* `Lexer.head?_tokenize_enclosed`: the first token of a source that starts with a quoted text, in each
  dialect and for each of its quotes.
-/

namespace SqlFrontend

open String (utf8Len)

variable {d : Dialect} {rest : List Char}

namespace Cursor

/-! ## Where quoting ends -/

theorem unquoteRun_doubleQuotes {quote : Char} (hrest : rest.head? ≠ some quote)
    (value read : List Char) (here : Cursor)
    (hr : here.rest = Literal.doubleQuotes quote value ++ quote :: rest) :
    unquoteRun quote (Literal.doubleQuotes quote value ++ quote :: rest) read here =
      (value.reverse ++ read,
        some (here.skip ((Literal.doubleQuotes quote value).length + 1))) := by
  induction value generalizing read here with
  | nil =>
    rw [Literal.doubleQuotes, List.nil_append] at hr ⊢
    rw [unquoteRun.eq_def, skip_succ hr]
    cases rest with
    | nil => simp [skip]
    | cons x rest =>
      have hx : x ≠ quote := by simpa using hrest
      simp [hx, skip]
  | cons c value ih =>
    rw [Literal.doubleQuotes] at hr ⊢
    by_cases hc : c = quote
    · subst hc
      rw [if_pos rfl] at hr ⊢
      simp only [List.cons_append, List.length_cons] at hr ⊢
      rw [unquoteRun.eq_def, skip_succ hr, skip_succ (rest_after _ _ _)]
      simp [ih _ _ (rest_after _ _ _)]
    · rw [if_neg hc] at hr ⊢
      simp only [List.cons_append, List.length_cons] at hr ⊢
      rw [unquoteRun.eq_def, skip_succ hr]
      simp [hc, ih _ _ (rest_after _ _ _)]

/-- The value of a text in quotes, up to a closing quote with no other one behind it. -/
theorem unquote?_doubleQuotes {quote : Char} (hrest : rest.head? ≠ some quote) (value : List Char)
    {here : Cursor} (hr : here.rest = Literal.doubleQuotes quote value ++ quote :: rest) :
    here.unquote? quote =
      some (String.ofList value, here.skip ((Literal.doubleQuotes quote value).length + 1)) := by
  rw [unquote?, hr, unquoteRun_doubleQuotes hrest value [] here hr]
  simp

/-- A text ends before the first delimiter in it. -/
theorem untilRun_first {delimiter body : List Char}
    (hfirst : ∀ n < body.length, ¬delimiter <+: (body ++ delimiter).drop n)
    (read : List Char) (here : Cursor) (hr : here.rest = body ++ (delimiter ++ rest)) :
    untilRun delimiter (body ++ (delimiter ++ rest)) read here =
      (body.reverse ++ read, some (here.skip body.length)) := by
  induction body generalizing read here with
  | nil =>
    have hprefix : delimiter.isPrefixOf (delimiter ++ rest) :=
      List.isPrefixOf_iff_prefix.2 (List.prefix_append _ _)
    rw [List.nil_append, untilRun.eq_def]
    split
    · next h => rw [h] at hprefix; rw [if_pos hprefix]; rfl
    · next h => rw [h] at hprefix; rw [if_pos hprefix]; rfl
  | cons c body ih =>
    have hnone : ¬delimiter.isPrefixOf (c :: (body ++ (delimiter ++ rest))) := by
      rw [List.isPrefixOf_iff_prefix]
      intro hprefix
      have hwhole : delimiter <+: c :: body ++ delimiter := by
        refine List.prefix_of_prefix_length_le hprefix ?_ (by simp; omega)
        rw [← List.append_assoc, ← List.cons_append, ← List.cons_append]
        exact List.prefix_append _ _
      exact hfirst 0 (Nat.succ_pos _) hwhole
    rw [List.cons_append] at hr ⊢
    rw [untilRun, if_neg hnone, List.length_cons, skip_succ hr, ih _ _ _ (rest_after _ _ _)]
    · simp
    · intro n hn
      exact hfirst (n + 1) (Nat.succ_lt_succ hn)

end Cursor

/-! ## What opens a quoted text -/

namespace Scan

variable {start here : Cursor} {opening closing : Char}

theorem ofChar_stringQuote (h : d.isStringQuote opening) :
    ofChar d start opening here = string opening here := by
  obtain rfl | ⟨rfl, rfl⟩ : opening = '\x27' ∨ d = .mySql ∧ opening = '"' := by
    simpa [Dialect.isStringQuote] using h
  · rfl
  · rfl

theorem closingQuote?_cases (h : d.closingQuote? opening = some closing) :
    opening = '[' ∧ closing = ']' ∨ opening = '"' ∧ closing = '"' ∧ d ≠ .mySql ∨
      opening = '\x60' ∧ closing = '\x60' := by
  unfold Dialect.closingQuote? at h
  split at h <;> cases h <;> simp

theorem ofChar_closingQuote (h : d.closingQuote? opening = some closing) :
    ofChar d start opening here = quotedIdentifier closing here := by
  have hliteral : ofChar d start opening here = literal d start opening here ∧
      opening ≠ 'N' ∧ opening ≠ 'n' ∧ d.isStringQuote opening = false := by
    obtain ⟨rfl, -⟩ | ⟨rfl, -, hd⟩ | ⟨rfl, -⟩ := closingQuote?_cases h
    · exact ⟨rfl, by decide, by decide, by cases d <;> rfl⟩
    · exact ⟨rfl, by decide, by decide, by cases d <;> first | rfl | exact absurd rfl hd⟩
    · exact ⟨rfl, by decide, by decide, by cases d <;> rfl⟩
  obtain ⟨heq, hupper, hlower, hstring⟩ := hliteral
  rw [heq, literal]
  simp [hupper, hlower, hstring, h]

/-- A tag of a dollar quote. It may be empty. -/
structure IsTag (tag : List Char) : Prop where
  chars : ∀ c ∈ tag, isTagChar c
  start : tag.head?.any Char.isDigit = false

theorem isTag_of_isAlphanum {tag : List Char} (hchars : ∀ c ∈ tag, c.isAlphanum)
    (hstart : tag.head?.any Char.isDigit = false) : IsTag tag where
  chars c hc := by rw [isTagChar, Text.isAlphanumeric_of_isAlphanum (hchars c hc), Bool.true_or]
  start := hstart

end Scan

/-- A text that starts with a character which is no blank, no number sign, and not the first of two
that open a comment. -/
theorem Lexer.bare_cons {c : Char} (hblank : Text.isBlank c = false) (hhash : c ≠ '#')
    (hline : c = '-' → rest.head? ≠ some '-') (hblock : c = '/' → rest.head? ≠ some '*') :
    Bare d (c :: rest) := by
  intro here hr
  rw [Cursor.skipTrivia, hr, Cursor.skipTriviaRun]
  · simp [hblank, hhash]
  · rintro t rfl rfl
    exact hline rfl rfl
  · rintro t rfl rfl
    exact hblock rfl rfl

namespace Lexer

/-! ## Readings -/

/-- A text in quotes is read as its value, whichever kind of token the quote opens. -/
theorem reads_quoted {opening closing : Char} {kind : TokenKind} {what : String}
    (hbare : ∀ text, Bare d (opening :: text)) (hrest : rest.head? ≠ some closing) (value : List Char)
    (hopens : ∀ start here : Cursor, Scan.ofChar d start opening here =
      match here.unquote? closing with
      | some (value, next) => ⟨kind, next, some value⟩
      | none => .unterminated what here) :
    Reads d (opening :: (Literal.doubleQuotes closing value ++ closing :: rest))
      ⟨0, (Literal.doubleQuotes closing value).length + 2, kind, String.ofList value⟩ := by
  let text := Literal.doubleQuotes closing value ++ closing :: rest
  have hscan (start : Cursor) (_ : start.rest = opening :: text) :
      Scan.ofChar d start opening (start.after opening text) =
        ⟨kind, (start.after opening text).skip ((Literal.doubleQuotes closing value).length + 1),
          some (String.ofList value)⟩ := by
    rw [hopens, Cursor.unquote?_doubleQuotes hrest value (Cursor.rest_after _ _ _)]
  exact reads_token (n := 0) (hbare _) rfl hscan

theorem reads_string {quote : Char} (hquote : d.isStringQuote quote)
    (hrest : rest.head? ≠ some quote) (value : List Char) :
    Reads d (quote :: (Literal.doubleQuotes quote value ++ quote :: rest))
      ⟨0, (Literal.doubleQuotes quote value).length + 2, .string, String.ofList value⟩ := by
  have hplain : Text.isBlank quote = false ∧ quote ≠ '#' ∧ quote ≠ '-' ∧ quote ≠ '/' := by
    obtain rfl | ⟨-, rfl⟩ : quote = '\x27' ∨ d = .mySql ∧ quote = '"' := by
      simpa [Dialect.isStringQuote] using hquote
    · decide
    · decide
  exact reads_quoted (fun _ => bare_cons hplain.1 hplain.2.1 (absurd · hplain.2.2.1)
    (absurd · hplain.2.2.2)) hrest value fun _ _ => Scan.ofChar_stringQuote hquote

theorem reads_quotedIdentifier {opening closing : Char}
    (hquote : d.closingQuote? opening = some closing) (hrest : rest.head? ≠ some closing)
    (value : List Char) :
    Reads d (opening :: (Literal.doubleQuotes closing value ++ closing :: rest))
      ⟨0, (Literal.doubleQuotes closing value).length + 2, .quotedIdentifier,
        String.ofList value⟩ := by
  have hplain : Text.isBlank opening = false ∧ opening ≠ '#' ∧ opening ≠ '-' ∧ opening ≠ '/' := by
    obtain ⟨rfl, -⟩ | ⟨rfl, -⟩ | ⟨rfl, -⟩ := Scan.closingQuote?_cases hquote <;> decide
  exact reads_quoted (fun _ => bare_cons hplain.1 hplain.2.1 (absurd · hplain.2.2.1)
    (absurd · hplain.2.2.2)) hrest value fun _ _ => Scan.ofChar_closingQuote hquote

/-- A text without dollar signs does not end its quotes. -/
theorem eq_nil_of_not_mem {tag body front back : List Char} (hbody : '$' ∉ body)
    (h : body ++ '$' :: (tag ++ ['$']) = front ++ '$' :: (tag ++ ['$']) ++ back) : back = [] := by
  induction body generalizing front with
  | nil =>
    have hlength := congrArg List.length h
    simp only [List.length_append, List.nil_append] at hlength
    exact List.length_eq_zero_iff.1 (by omega)
  | cons c body ih =>
    rw [List.mem_cons, not_or] at hbody
    cases front with
    | nil => exact absurd (List.cons.inj h).1.symm hbody.1
    | cons x front => exact ih hbody.2 (List.cons.inj h).2

/-- A text in dollar quotes is read up to the first repetition of its tag. -/
theorem reads_dollarQuote {tag body : List Char} (htag : Scan.IsTag tag)
    (hfirst : ∀ n < body.length,
      ¬ '$' :: (tag ++ ['$']) <+: (body ++ '$' :: (tag ++ ['$'])).drop n) :
    Reads .postgreSql ('$' :: (tag ++ '$' :: (body ++ ('$' :: (tag ++ ['$']) ++ rest))))
      ⟨0, 2 * tag.length + body.length + 4, .dollarQuote, String.ofList body⟩ := by
  let delimiter := '$' :: (tag ++ ['$'])
  let text := tag ++ '$' :: (body ++ (delimiter ++ rest))
  have hdelimiter : delimiter.length = tag.length + 2 := by simp [delimiter]
  have hlength : 2 * tag.length + body.length + 4 =
      tag.length + 1 + (body.length + delimiter.length) + 1 := by omega
  have hbare : Bare .postgreSql ('$' :: text) :=
    bare_cons (by decide) (by decide) (absurd · (by decide)) (absurd · (by decide))
  have hrun : text.takeWhile Scan.isTagChar = tag := by
    rw [List.takeWhile_append_of_pos htag.chars, List.takeWhile_cons_of_neg (by decide),
      List.append_nil]
  have hdrop : text.dropWhile Scan.isTagChar = '$' :: (body ++ (delimiter ++ rest)) := by
    rw [List.dropWhile_append_of_pos htag.chars, List.dropWhile_cons_of_neg (by decide)]
  have hstart : text.head?.any Char.isDigit = false := by
    have hfirst := htag.start
    cases htags : tag with
    | nil => simp [text, htags]
    | cons c tag => simpa [text, htags] using hfirst
  have hopening : text = tag ++ ['$'] ++ (body ++ (delimiter ++ rest)) := List.append_cons ..
  have hscan (start : Cursor) (_ : start.rest = '$' :: text) :
      Scan.ofChar .postgreSql start '$' (start.after '$' text) =
        ⟨.dollarQuote, (start.after '$' text).skip (tag.length + 1 + (body.length + delimiter.length)),
          some (String.ofList body)⟩ := by
    have hdollar : Scan.ofChar .postgreSql start '$' (start.after '$' text) =
        Scan.dollar (start.after '$' text) := rfl
    have hopened : ((start.after '$' text).skip (tag.length + 1)).rest =
        body ++ (delimiter ++ rest) := by
      rw [Cursor.skip_rest, Cursor.rest_after, hopening, List.drop_left' (by simp)]
    rw [← Nat.add_assoc, hdollar, Scan.dollar_eq _ hstart (by rw [Cursor.rest_after, hdrop]; rfl),
      Cursor.rest_after, Scan.delimiterOf, hrun, Cursor.until?, hopened,
      Cursor.untilRun_first hfirst [] _ hopened]
    simp only [List.append_nil, List.reverse_reverse, ← Cursor.skip_add]
    rfl
  rw [hlength]
  exact reads_token (n := 0) hbare rfl hscan

/-! ## First tokens -/

theorem head?_tokens (lexer : Lexer) : lexer.tokens.head? = some lexer.next.1 := by
  rw [tokens_eq]
  split <;> rfl

/-- What is read first of a source without a gap before it stands at its beginning. -/
theorem head?_tokenize {text rest : String} {n : ℕ} {kind : TokenKind} {literal : String}
    (h : Reads d (text.toList ++ rest.toList) ⟨0, n, kind, literal⟩) (hn : text.toList.length = n) :
    (tokenize (text ++ rest) d).head? = some ⟨kind, literal, ⟨0, text.utf8ByteSize, 1, 1⟩⟩ := by
  have hrest : (ofSource (text ++ rest) d).cursor.rest = text.toList ++ rest.toList :=
    String.toList_append
  have hstop : ((ofSource (text ++ rest) d).cursor.skip (0 + n)).offset = text.utf8ByteSize := by
    rw [Cursor.skip_offset, hrest, Nat.zero_add, ← hn, List.take_left, String.utf8Len_toList]
    exact Nat.zero_add _
  rw [tokenize, head?_tokens, h _ rfl hrest, ← hstop]
  rfl

/-- A text in quotes. A closing quote in it is written twice. -/
def enclose (opening closing : Char) (value : String) : String :=
  String.ofList (opening :: (Literal.doubleQuotes closing value.toList ++ [closing]))

theorem toList_enclose (opening closing : Char) (value : String) (rest : List Char) :
    (enclose opening closing value).toList ++ rest =
      opening :: (Literal.doubleQuotes closing value.toList ++ closing :: rest) := by
  simp [enclose]

theorem length_enclose (opening closing : Char) (value : String) :
    (enclose opening closing value).toList.length =
      (Literal.doubleQuotes closing value.toList).length + 2 := by
  simp [enclose]

theorem quoted_eq_enclose (value : String) :
    Literal.quoted value = enclose '\x27' '\x27' value := by
  rw [← String.toList_inj]
  simp [Literal.quoted, enclose]

/-- A text between two tags in dollar signs. -/
def encloseDollar (tag body : String) : String := "$" ++ tag ++ "$" ++ body ++ "$" ++ tag ++ "$"

theorem head?_tokenize_string {quote : Char} {rest : String} (hquote : d.isStringQuote quote)
    (hrest : rest.toList.head? ≠ some quote) (value : String) :
    (tokenize (enclose quote quote value ++ rest) d).head? =
      some ⟨.string, value, ⟨0, (enclose quote quote value).utf8ByteSize, 1, 1⟩⟩ := by
  have hreads := reads_string hquote hrest value.toList
  rw [← toList_enclose, String.ofList_toList] at hreads
  exact head?_tokenize hreads (length_enclose _ _ _)

theorem head?_tokenize_quotedIdentifier {opening closing : Char} {rest : String}
    (hquote : d.closingQuote? opening = some closing) (hrest : rest.toList.head? ≠ some closing)
    (value : String) :
    (tokenize (enclose opening closing value ++ rest) d).head? =
      some ⟨.quotedIdentifier, value, ⟨0, (enclose opening closing value).utf8ByteSize, 1, 1⟩⟩ := by
  have hreads := reads_quotedIdentifier hquote hrest value.toList
  rw [← toList_enclose, String.ofList_toList] at hreads
  exact head?_tokenize hreads (length_enclose _ _ _)

theorem head?_tokenize_dollarQuote {tag body : String} (htag : Scan.IsTag tag.toList)
    (hfirst : ∀ n < body.length,
      ¬("$" ++ tag ++ "$").toList <+: (body ++ "$" ++ tag ++ "$").toList.drop n)
    (rest : String) :
    (tokenize (encloseDollar tag body ++ rest) .postgreSql).head? =
      some ⟨.dollarQuote, body, ⟨0, (encloseDollar tag body).utf8ByteSize, 1, 1⟩⟩ := by
  have hfirst' : ∀ n < body.toList.length, ¬ '$' :: (tag.toList ++ ['$']) <+:
      (body.toList ++ '$' :: (tag.toList ++ ['$'])).drop n := by
    rw [String.length_toList]
    simpa using hfirst
  have htext : (encloseDollar tag body).toList ++ rest.toList = '$' :: (tag.toList ++
      '$' :: (body.toList ++ ('$' :: (tag.toList ++ ['$']) ++ rest.toList))) := by
    simp [encloseDollar]
  have hreads : Reads .postgreSql ((encloseDollar tag body).toList ++ rest.toList) _ :=
    htext ▸ reads_dollarQuote htag hfirst'
  rw [String.ofList_toList] at hreads
  refine head?_tokenize hreads ?_
  simp [encloseDollar]
  omega

/-- A string as it is written is one token. -/
theorem tokenize_summary_string (d : Dialect) (value : String) :
    ∃ finish : Token, finish.isEof ∧ tokenize (Literal.string value).summary d =
      [⟨.string, value, ⟨0, (Literal.string value).summary.utf8ByteSize, 1, 1⟩⟩, finish] := by
  have hquote : d.isStringQuote '\x27' := rfl
  have hnone : ([] : List Char).head? ≠ some '\x27' := by simp
  have hreads := reads_string hquote hnone value.toList
  have hhead : (tokenize (enclose '\x27' '\x27' value ++ "") d).head? = _ :=
    head?_tokenize_string hquote (by simp) value
  rw [← toList_enclose, String.ofList_toList, List.append_nil, ← length_enclose] at hreads
  rw [Literal.summary, quoted_eq_enclose]
  rw [String.append_empty] at hhead
  let lexer := ofSource (enclose '\x27' '\x27' value) d
  have hnext := hreads lexer rfl rfl
  have hbehind : lexer.next.2.cursor.rest = [] := by
    rw [hnext]
    change (lexer.cursor.skip _).rest = []
    rw [Cursor.skip_rest, Nat.zero_add]
    exact List.drop_length
  have hend : Reads lexer.next.2.dialect [] ⟨0, 0, .eof, ""⟩ :=
    reads_end (n := 0) (fun here hr => by rw [Cursor.skipTrivia, hr]; rfl) rfl
  have hfinish : lexer.next.2.tokens = [lexer.next.2.next.1] := by
    rw [tokens_eq, hend _ rfl hbehind]
    rfl
  rw [tokenize, head?_tokens, Option.some.injEq] at hhead
  refine ⟨lexer.next.2.next.1, by rw [hend _ rfl hbehind]; rfl, ?_⟩
  rw [tokenize, tokens_eq, hhead, ← hfinish]
  rfl

/-- Quoting is undone by reading. In every dialect, a source that starts with a text in quotes starts
with the token of that text, over all of it: a string or a name, whatever quotes are in it, and where
dollar signs quote, a text before the first repetition of its tag. A string as it is written is read
back as that string. -/
theorem head?_tokenize_enclosed (d : Dialect) :
    (∀ (quote : Char) (value rest : String), d.isStringQuote quote → rest.toList.head? ≠ some quote →
      (tokenize (enclose quote quote value ++ rest) d).head? =
        some ⟨.string, value, ⟨0, (enclose quote quote value).utf8ByteSize, 1, 1⟩⟩) ∧
    (∀ (opening closing : Char) (value rest : String), d.closingQuote? opening = some closing →
      rest.toList.head? ≠ some closing →
      (tokenize (enclose opening closing value ++ rest) d).head? =
        some ⟨.quotedIdentifier, value, ⟨0, (enclose opening closing value).utf8ByteSize, 1, 1⟩⟩) ∧
    (∀ value : String, ∃ finish : Token, finish.isEof ∧ tokenize (Literal.string value).summary d =
      [⟨.string, value, ⟨0, (Literal.string value).summary.utf8ByteSize, 1, 1⟩⟩, finish]) ∧
    (∀ tag body rest : String, d = .postgreSql → Scan.IsTag tag.toList →
      (∀ n < body.length, ¬("$" ++ tag ++ "$").toList <+:
        (body ++ "$" ++ tag ++ "$").toList.drop n) →
      (tokenize (encloseDollar tag body ++ rest) d).head? =
        some ⟨.dollarQuote, body, ⟨0, (encloseDollar tag body).utf8ByteSize, 1, 1⟩⟩) :=
  ⟨fun _ value _ hquote hrest => head?_tokenize_string hquote hrest value,
    fun _ _ value _ hquote hrest => head?_tokenize_quotedIdentifier hquote hrest value,
    tokenize_summary_string d,
    fun _ _ rest hd htag hfirst => hd ▸ head?_tokenize_dollarQuote htag hfirst rest⟩

/-- Runs of quotes, and parts of a tag before the tag. -/
theorem head?_tokenize_enclosed_runs :
    (Dialect.postgreSql.isStringQuote '\x27' ∧ " '".toList.head? ≠ some '\x27' ∧
      (tokenize (enclose '\x27' '\x27' "''a'" ++ " '") .postgreSql).head? =
        some ⟨.string, "''a'", ⟨0, 9, 1, 1⟩⟩) ∧
    (Dialect.postgreSql.closingQuote? '"' = some '"' ∧ "".toList.head? ≠ some '"' ∧
      (tokenize (enclose '"' '"' "\"\"" ++ "") .postgreSql).head? =
        some ⟨.quotedIdentifier, "\"\"", ⟨0, 6, 1, 1⟩⟩) ∧
    (Scan.IsTag "a".toList ∧
      (∀ n < "$b$ a $".length, ¬("$" ++ "a" ++ "$").toList <+:
        ("$b$ a $" ++ "$" ++ "a" ++ "$").toList.drop n) ∧
      (tokenize (encloseDollar "a" "$b$ a $" ++ "$a$") .postgreSql).head? =
        some ⟨.dollarQuote, "$b$ a $", ⟨0, 13, 1, 1⟩⟩) := by
  obtain ⟨hstring, hname, -, hdollar⟩ := head?_tokenize_enclosed .postgreSql
  have htag : Scan.IsTag "a".toList :=
    Scan.isTag_of_isAlphanum (List.forall_mem_singleton.2 (by decide)) (by decide)
  have hfirst : ∀ n < "$b$ a $".length, ¬("$" ++ "a" ++ "$").toList <+:
      ("$b$ a $" ++ "$" ++ "a" ++ "$").toList.drop n := by decide
  exact ⟨⟨rfl, by decide, hstring '\x27' "''a'" " '" rfl (by decide)⟩,
    ⟨rfl, by decide, hname '"' '"' "\"\"" "" rfl (by decide)⟩,
    ⟨htag, hfirst, hdollar "a" "$b$ a $" "$a$" rfl htag hfirst⟩⟩

end Lexer

end SqlFrontend

import SqlFrontend.Proofs.Lexing.Seam

/-!
# The word between two batches

Two texts are joined by a line with the word that ends a batch. A lexer that has read the first text
reads the word, and behind it the second text.

* `Scan.ofChar_cases`: what is found is a token with its end, one without it, or none.
* `Lexer.tokens_of_unterminated`: only the last token of a text lacks its end.
* `Lexer.batches`, `Lexer.separator`: two texts with the word between them, and the place of the word.
* `Lexer.next_behind_separator`: behind the word the second text is read.
* `Lexer.InBatch`: lexers in the first text. At its end they read the word.
-/

namespace SqlFrontend

open String (utf8Len)

/-! ## Tokens that lack their end -/

namespace Scan

variable {d : Dialect} {start here : Cursor} {c : Char}

/-- What is found is a token, a text that lacks its end, or a character that starts no token. -/
theorem ofChar_cases {P : Scan → Prop}
    (found : ∀ kind next literal?, kind ≠ .illegal →
      (kind = .dollarQuote → d.hasDollarQuotes) → P ⟨kind, next, literal?⟩)
    (unterminated : ∀ what here, P (unterminated what here))
    (unexpected : ∀ c here, P (unexpected c here)) : P (ofChar d start c here) := by
  have hplain {kind : TokenKind} {next : Cursor} (hi : kind ≠ .illegal) (hd : kind ≠ .dollarQuote)
      (literal? : Option String) : P ⟨kind, next, literal?⟩ :=
    found _ _ _ hi fun h => absurd h hd
  have hextended {c : Char} {kind : TokenKind} {otherwise : Scan} (hi : kind ≠ .illegal)
      (hd : kind ≠ .dollarQuote) (ho : P otherwise) : P (extended c kind here otherwise) := by
    unfold extended
    split
    · exact hplain hi hd none
    · exact ho
  have hstring (quote : Char) (here : Cursor) : P (string quote here) := by
    unfold string
    split
    · exact hplain (by decide) (by decide) _
    · exact unterminated _ _
  have hquoted (quote : Char) : P (quotedIdentifier quote here) := by
    unfold quotedIdentifier
    split
    · exact hplain (by decide) (by decide) _
    · exact unterminated _ _
  have hdollar (hd : d.hasDollarQuotes) : P (dollar here) := by
    unfold dollar
    split
    · exact hplain (by decide) (by decide) _
    · dsimp only
      split
      · split
        · exact found _ _ _ (by decide) fun _ => hd
        · exact unterminated _ _
      · exact unexpected _ _
  have hword : P (word d start c here) := by
    unfold word
    dsimp only
    split
    · split
      · exact hplain (by decide) (by decide) _
      · refine hplain (fun h => ?_) (fun h => ?_) _ <;> cases h
    · exact hplain (by decide) (by decide) _
  have hliteral : P (literal d start c here) := by
    unfold literal
    split
    · exact hstring _ _
    split
    · exact hstring _ _
    split
    · exact hquoted _
    split
    · exact hplain (by decide) (by decide) _
    split
    · exact hplain (by decide) (by decide) _
    split
    · next h => exact hdollar (Bool.and_eq_true_iff.1 h).2
    split
    · exact hplain (by decide) (by decide) _
    split
    · exact hword
    · exact unexpected _ _
  unfold ofChar
  split
  · next kind hkind =>
    unfold punctuation? at hkind
    split at hkind <;> cases hkind <;> exact hplain (by decide) (by decide) _
  split
  · split
    · exact hplain (by decide) (by decide) _
    · exact hextended (by decide) (by decide) (hplain (by decide) (by decide) _)
  · exact hextended (by decide) (by decide)
      (hextended (by decide) (by decide) (hplain (by decide) (by decide) _))
  · exact hextended (by decide) (by decide) (hplain (by decide) (by decide) _)
  · exact hextended (by decide) (by decide)
      (hextended (by decide) (by decide) (hplain (by decide) (by decide) _))
  · exact hextended (by decide) (by decide) (hplain (by decide) (by decide) _)
  · exact hextended (by decide) (by decide) (unexpected _ _)
  · exact hextended (by decide) (by decide) (unexpected _ _)
  · exact hliteral

theorem saysUnterminated_unexpected (c : Char) :
    saysUnterminated ("unexpected character '" ++ toString c ++ "'") = false := by
  have h (what : String) :
      ("unexpected character '" ++ toString c ++ "'" == "unterminated " ++ what) = false := by
    rw [beq_eq_false_iff_ne]
    intro heq
    have hthird := congrArg (fun s => s.toList[2]?) heq
    simp [String.toList_append] at hthird
  simp [saysUnterminated, h]

/-- What lacks its end reaches to the end of the text. -/
theorem rest_of_isUnterminated :
    (Lexer.tokenOf start (ofChar d start c here)).isUnterminated →
      (ofChar d start c here).next.rest = [] := by
  refine ofChar_cases (P := fun scan => (Lexer.tokenOf start scan).isUnterminated →
    scan.next.rest = []) (fun kind next literal? hkind _ h => ?_) (fun what here _ => ?_)
    fun c here h => ?_
  · rw [Token.isUnterminated, Bool.and_eq_true, beq_iff_eq] at h
    exact absurd h.1 hkind
  · exact Cursor.finish_rest here
  · have hsays := (Bool.and_eq_true_iff.1 h).2
    change saysUnterminated ("unexpected character '" ++ toString c ++ "'") = true at hsays
    rw [saysUnterminated_unexpected] at hsays
    cases hsays

end Scan

namespace Lexer

variable {lexer : Lexer}

theorem rest_of_isUnterminated (h : lexer.next.1.isUnterminated) :
    lexer.next.2.cursor.rest = [] := by
  unfold next at h ⊢
  split at h
  · exact Cursor.finish_rest _
  · split at h
    · next hrest => exact hrest
    · exact Scan.rest_of_isUnterminated h

/-- Only the last token of a text lacks its end. -/
theorem tokens_of_unterminated {t : Token} (ht : t ∈ lexer.tokens) (h : t.isUnterminated) :
    ∃ before finish, lexer.tokens = before ++ [t, finish] := by
  fun_induction tokens lexer with
  | case1 lexer token behind hnext hend =>
    obtain rfl := List.mem_singleton.1 ht
    rw [Token.isUnterminated, eq_of_beq hend] at h
    cases h
  | case2 lexer token behind hnext hend ih =>
    rcases List.mem_cons.1 ht with rfl | ht
    · have hrest : behind.cursor.rest = [] := by
        have := @rest_of_isUnterminated lexer (by rw [hnext]; exact h)
        rwa [hnext] at this
      refine ⟨[], behind.next.1, ?_⟩
      rw [tokens_eq, if_pos (next_isEof hrest)]
      rfl
    · obtain ⟨before, finish, heq⟩ := ih ht
      exact ⟨token :: before, finish, by rw [heq]; rfl⟩

/-- Without dollar quotes there are none among the tokens. -/
theorem kind_ne_dollarQuote {t : Token} (hd : lexer.dialect.hasDollarQuotes = false)
    (ht : t ∈ lexer.tokens) : t.kind ≠ .dollarQuote := by
  have hnext (lexer : Lexer) (hd : lexer.dialect.hasDollarQuotes = false) :
      lexer.next.1.kind ≠ .dollarQuote := by
    unfold next
    split
    · intro h
      cases h
    · split
      · intro h
        cases h
      · refine Scan.ofChar_cases (P := fun scan => scan.kind ≠ .dollarQuote)
          (fun kind _ _ _ hdollar h => ?_) (fun _ _ h => ?_) fun _ _ h => ?_
        · rw [hdollar h] at hd
          cases hd
        · cases h
        · cases h
  fun_induction tokens lexer with
  | case1 lexer token behind hread hend =>
    obtain rfl := List.mem_singleton.1 ht
    have := hnext lexer hd
    rwa [hread] at this
  | case2 lexer token behind hread hend ih =>
    rcases List.mem_cons.1 ht with rfl | ht
    · have := hnext lexer hd
      rwa [hread] at this
    · have hdialect := next_dialect lexer
      rw [hread] at hdialect
      exact ih (hdialect ▸ hd) ht

/-! ## Two batches -/

/-- A line with the word that ends a batch, without the line feed before it, and a text behind it. -/
def batchTail (b : String) : String := "GO" ++ "\n" ++ b

/-- Two texts with a line between them that holds the word that ends a batch. -/
def batches (a b : String) : String := a ++ "\n" ++ batchTail b

theorem batches_eq (a b : String) : batches a b = a ++ "\nGO\n" ++ b := by
  apply String.toList_injective
  simp [batches, batchTail]

/-- How much longer two batches are than the first one. -/
theorem utf8ByteSize_batches (a b : String) :
    (batches a b).utf8ByteSize = a.utf8ByteSize + (b.utf8ByteSize + 4) := by
  have hline : "\nGO\n".utf8ByteSize = 4 := rfl
  rw [batches_eq, String.utf8ByteSize_append, String.utf8ByteSize_append, hline]
  omega

/-- The place of the word between two batches. -/
def separator (a b : String) : Lexer :=
  (ofSource (batchTail b) .sqlServer).placed (batches a b) (a.utf8ByteSize + 1)
    (a.toList.count '\n' + 1)

/-- What is read of the word that ends a batch, where nothing stands before it. -/
theorem next_word : (ofSource "GO" .sqlServer).next.1.isEof = false ∧
    (ofSource "GO" .sqlServer).next.1.isUnterminated = false ∧
    (ofSource "GO" .sqlServer).next.1.isWord "GO" ∧
    (ofSource "GO" .sqlServer).next.1.span.start = 0 ∧
    (ofSource "GO" .sqlServer).next.2.next.1.isEof ∧
    (ofSource "GO" .sqlServer).next.2.cursor.offset +
      utf8Len (ofSource "GO" .sqlServer).next.2.cursor.rest + 1 = 3 ∧
    (ofSource "GO" .sqlServer).next.2.cursor.line +
      (ofSource "GO" .sqlServer).next.2.cursor.rest.count '\n' = 1 ∧
    (ofSource "GO" .sqlServer).next.2.dialect = .sqlServer := by
  decide +kernel

theorem next_batchTail (b : String) :
    (ofSource (batchTail b) .sqlServer).next =
      ((ofSource "GO" .sqlServer).next.1, (ofSource "GO" .sqlServer).next.2.followed b) := by
  have hjoin : ofSource (batchTail b) .sqlServer = (ofSource "GO" .sqlServer).followed b := by
    simp [batchTail, ofSource, followed, Cursor.start, Cursor.followed]
  obtain ⟨hend, hopen, -⟩ := next_word
  rw [hjoin, next_followed hend hopen]

/-- The first token at the place of the word is the word, behind the line feed. -/
theorem next_separator (a b : String) :
    (separator a b).next.1.isWord "GO" ∧
      (separator a b).next.1.span.start = a.utf8ByteSize + 1 := by
  rw [separator, next_placed, next_batchTail]
  obtain ⟨-, -, hword, hstart, -⟩ := next_word
  refine ⟨hword, ?_⟩
  change (ofSource "GO" .sqlServer).next.1.span.start + (a.utf8ByteSize + 1) = _
  rw [hstart, Nat.zero_add]

theorem placed_placed (source source' : String) (bytes lines bytes' lines' : Nat) (lexer : Lexer) :
    (lexer.placed source bytes lines).placed source' bytes' lines' =
      lexer.placed source' (bytes + bytes') (lines + lines') := by
  simp only [placed, Cursor.moved, Nat.add_assoc]

/-- Behind the word the second text is read. -/
theorem next_behind_separator (a b : String) :
    (separator a b).next.2.next =
      ((ofSource b .sqlServer).placed (batches a b) (a.utf8ByteSize + 4)
        (a.toList.count '\n' + 2)).next := by
  obtain ⟨-, -, -, -, hend, hbytes, hlines, hdialect⟩ := next_word
  have hnext := next_followed_of_isEof b hend
  rw [hbytes, hlines, hdialect] at hnext
  have hplace := placed_placed ((ofSource "GO" .sqlServer).next.2.followed b).source (batches a b) 3 1 (a.utf8ByteSize + 1)
    (a.toList.count '\n' + 1) (ofSource b .sqlServer)
  rw [show 3 + (a.utf8ByteSize + 1) = a.utf8ByteSize + 4 by omega,
    show 1 + (a.toList.count '\n' + 1) = a.toList.count '\n' + 2 by omega] at hplace
  rw [separator, next_placed, next_batchTail, ← hplace, next_placed]
  dsimp only
  rw [next_placed, hnext]

/-- A lexer in the first of two batches. -/
structure InBatch (a : String) (lexer : Lexer) : Prop where
  sound : lexer.Sound
  source : lexer.source = a
  dialect : lexer.dialect = .sqlServer
  line : lexer.cursor.line + lexer.cursor.rest.count '\n' = a.toList.count '\n' + 1

theorem inBatch_ofSource (a : String) : (ofSource a .sqlServer).InBatch a :=
  ⟨sound_ofSource _ _, rfl, rfl, Nat.add_comm _ _⟩

namespace InBatch

variable {a : String}

theorem next (h : lexer.InBatch a) : lexer.next.2.InBatch a :=
  ⟨h.sound.next, (next_source lexer).trans h.source, (next_dialect lexer).trans h.dialect,
    (next_place lexer).2.trans h.line⟩

/-- At the end of the first batch the word is read. -/
theorem next_followed_of_isEof (h : lexer.InBatch a) (b : String) (hend : lexer.next.1.isEof) :
    (lexer.followed (batchTail b)).next = (separator a b).next := by
  obtain ⟨front, htext, hfront⟩ := h.sound
  have hbytes : lexer.cursor.offset + utf8Len lexer.cursor.rest + 1 = a.utf8ByteSize + 1 := by
    rw [← hfront, ← String.utf8Len_append, ← htext, String.utf8Len_toList, h.source]
  have hsource : (lexer.followed (batchTail b)).source = batches a b := by
    rw [followed, h.source]
    rfl
  rw [Lexer.next_followed_of_isEof _ hend, hbytes, h.line, hsource, h.dialect]
  rfl

end InBatch

end Lexer

end SqlFrontend

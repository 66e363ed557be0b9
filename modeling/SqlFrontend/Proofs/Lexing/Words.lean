import SqlFrontend.Proofs.Lexing.Kinds
import SqlFrontend.Proofs.Lexing.LetterCase

/-!
# Words

A word is a name without quotes or a keyword. What a lexer reads as a word is read as the same word
wherever it is written, and in capitals as the same kind of word.

Results:
* `Piece.IsWord`: the pieces that are words of a dialect.
* `Lexer.isWord_of_mem_tokens`: names without quotes and keywords are words.
* `Lexer.closing_of_mem_tokens`: what closes a construct does not look like a variable.
* `Piece.IsWord.upper`: words in capitals are words.
* `Piece.IsWord.pieces`: a word is cut from a text at its end.
-/

namespace SqlFrontend

/-! ## Letters -/

namespace Text

theorem toLower_toUpper (c : Char) : c.toUpper.toLower = c.toLower := by
  apply Char.toNat_inj.1
  rw [toNat_toLower, toNat_toUpper, toNat_toLower]
  grind

theorem lower_upper (s : String) : lower (upper s) = lower s := by
  apply String.toList_injective
  rw [lower, upper, lower, String.toList_map, String.toList_map, String.toList_map, List.map_map]
  exact List.map_congr_left fun c _ => toLower_toUpper c

@[simp] theorem upper_upper (s : String) : upper (upper s) = upper s :=
  upper_eq_of_lower_eq (lower_upper s)

theorem sameWord_upper (s word : String) : sameWord (upper s) word = sameWord s word :=
  sameWord_of_lower_eq (lower_upper s) rfl

theorem toList_upper_ofList (cs : List Char) :
    upper (String.ofList cs) = String.ofList (cs.map Char.toUpper) := by
  apply String.toList_injective
  simp [upper]

end Text

namespace Scan

variable {d : Dialect} {c : Char}

theorem caseless_isNamePrefix (d : Dialect) : Text.Caseless d.isNamePrefix :=
  Text.caseless_of_isAlpha fun _ h => isNamePrefix_of_isWordStart (Text.wordStart_of_isAlpha h)

theorem caseless_isNameStart (d : Dialect) : Text.Caseless (isNameStart d) :=
  Text.caseless_of_isAlpha (x := true) fun c h => by
    rw [isNameStart, h, Bool.true_or, Bool.true_or]

theorem eq_of_isNamePrefix (h : d.isNamePrefix c) :
    d = .sqlServer ∧ (c = '@' ∨ c = '#') ∨ d = .mySql ∧ c = '@' ∨ d = .sqlite ∧ (c = '@' ∨ c = '$') := by
  cases d <;> simp [Dialect.isNamePrefix] at h ⊢ <;> exact h

/-- What starts like a name and is not marked as a string is scanned as a word. -/
theorem ofChar_nameStart {start here : Cursor} (h : isNameStart d c)
    (hquote : here.peek? ≠ some '\x27') : ofChar d start c here = word d start c here := by
  rw [isNameStart, Bool.or_eq_true] at h
  rcases h with h | h
  · exact ofChar_word h hquote
  · obtain ⟨rfl, rfl | rfl⟩ | ⟨rfl, rfl⟩ | ⟨rfl, rfl | rfl⟩ := eq_of_isNamePrefix h <;> rfl

/-- The number of a parameter is scanned with the sign before it. -/
theorem ofChar_parameter {start here : Cursor} (h : d.hasDollarQuotes)
    (hdigit : here.peek?.any Char.isDigit) :
    ofChar d start '$' here = ⟨.identifier, here.skipWhile Char.isDigit, none⟩ := by
  obtain rfl : d = .postgreSql := by simpa [Dialect.hasDollarQuotes] using h
  show dollar here = _
  rw [dollar, if_pos hdigit]

/-- What a name without quotes is scanned as: a word, or the number of a parameter. -/
def NameScan (d : Dialect) (start : Cursor) (c : Char) (here : Cursor) (scan : Scan) : Prop :=
  isNameStart d c ∧ scan = word d start c here ∨
    c = '$' ∧ d.hasDollarQuotes ∧ here.peek?.any Char.isDigit

theorem nameScan_of_kind_ne {start here : Cursor} {scan : Scan} (h : scan.kind ≠ .identifier)
    (hscan : scan.kind = .identifier) : NameScan d start c here scan := absurd hscan h

theorem string_ne_identifier {quote : Char} {here : Cursor} :
    (string quote here).kind ≠ .identifier := by
  unfold string
  split <;> nofun

theorem extended_ne_identifier {x : Char} {kind : TokenKind} {here : Cursor} {otherwise : Scan}
    (hkind : kind ≠ .identifier) (ho : otherwise.kind ≠ .identifier) :
    (extended x kind here otherwise).kind ≠ .identifier := by
  unfold extended
  split
  · exact hkind
  · exact ho

theorem literal_identifier {start here : Cursor} :
    (literal d start c here).kind = .identifier → NameScan d start c here (literal d start c here) := by
  unfold literal
  split
  · exact nameScan_of_kind_ne string_ne_identifier
  split
  · exact nameScan_of_kind_ne string_ne_identifier
  split
  · unfold quotedIdentifier
    split <;> nofun
  split
  · nofun
  split
  · nofun
  split
  · next hdollar =>
    rw [Bool.and_eq_true, decide_eq_true_eq] at hdollar
    unfold dollar
    split
    · next hdigit => exact fun _ => .inr ⟨hdollar.1, hdollar.2, hdigit⟩
    · dsimp only
      split
      · split <;> nofun
      · nofun
  split
  · nofun
  split
  · next hname => exact fun _ => .inl ⟨hname, rfl⟩
  · nofun

/-- A name without quotes is a word or the number of a parameter. -/
theorem ofChar_identifier {start here : Cursor} :
    (ofChar d start c here).kind = .identifier → NameScan d start c here (ofChar d start c here) := by
  unfold ofChar
  split
  · next hpunctuation =>
    unfold punctuation? at hpunctuation
    split at hpunctuation <;> cases hpunctuation <;> nofun
  split
  · split
    · nofun
    · exact nameScan_of_kind_ne (extended_ne_identifier nofun nofun)
  · exact nameScan_of_kind_ne (extended_ne_identifier nofun (extended_ne_identifier nofun nofun))
  · exact nameScan_of_kind_ne (extended_ne_identifier nofun nofun)
  · exact nameScan_of_kind_ne (extended_ne_identifier nofun (extended_ne_identifier nofun nofun))
  · exact nameScan_of_kind_ne (extended_ne_identifier nofun nofun)
  · exact nameScan_of_kind_ne (extended_ne_identifier nofun nofun)
  · exact nameScan_of_kind_ne (extended_ne_identifier nofun nofun)
  · exact literal_identifier

theorem extended_ne_rightParen {x : Char} {kind : TokenKind} {here : Cursor} {otherwise : Scan}
    (hkind : kind ≠ .rightParen) (ho : otherwise.kind ≠ .rightParen) :
    (extended x kind here otherwise).kind ≠ .rightParen := by
  unfold extended
  split
  · exact hkind
  · exact ho

theorem literal_ne_rightParen {start here : Cursor} : (literal d start c here).kind ≠ .rightParen := by
  unfold literal string quotedIdentifier dollar word number
  dsimp only
  repeat' split
  all_goals nofun

/-- A closing parenthesis is scanned from its character alone. -/
theorem eq_of_rightParen {start here : Cursor} (h : (ofChar d start c here).kind = .rightParen) :
    c = ')' := by
  unfold ofChar at h
  split at h
  · next hpunctuation =>
    subst h
    unfold punctuation? at hpunctuation
    split at hpunctuation <;> first | rfl | cases hpunctuation
  · exfalso
    revert h
    split
    · split
      · nofun
      · exact extended_ne_rightParen nofun nofun
    · exact extended_ne_rightParen nofun (extended_ne_rightParen nofun nofun)
    · exact extended_ne_rightParen nofun nofun
    · exact extended_ne_rightParen nofun (extended_ne_rightParen nofun nofun)
    · exact extended_ne_rightParen nofun nofun
    · exact extended_ne_rightParen nofun nofun
    · exact extended_ne_rightParen nofun nofun
    · exact literal_ne_rightParen

end Scan

/-! ## Pieces -/

/-- The kind of a word that starts with a character. -/
def Lexer.nameKind (d : Dialect) (c : Char) (word : String) : TokenKind :=
  if d.isNamePrefix c then .identifier else wordKind d word

/-- The pieces that are words: names without quotes, and keywords. A numbered parameter is a name. -/
inductive Piece.IsWord (d : Dialect) : Piece → Prop
  | word {c : Char} {cs : List Char} : Scan.isNameStart d c → (∀ x ∈ cs, Scan.isNameChar d x) →
      IsWord d ⟨Lexer.nameKind d c (String.ofList (c :: cs)), String.ofList (c :: cs)⟩
  | parameter {digits : List Char} : d.hasDollarQuotes → digits ≠ [] → (∀ x ∈ digits, x.isDigit) →
      IsWord d ⟨.identifier, String.ofList ('$' :: digits)⟩

namespace Lexer

variable {d : Dialect} {rest : List Char}

theorem nameKind_upper (d : Dialect) (c : Char) (word : String) :
    nameKind d c.toUpper (Text.upper word) = nameKind d c word := by
  rw [nameKind, nameKind, Scan.caseless_isNamePrefix d _ _ (Text.toLower_toUpper c), wordKind, wordKind,
    Scan.keyword?_respelt (Text.lower_upper word)]

theorem nameKind_ne_eof (d : Dialect) (c : Char) (word : String) : nameKind d c word ≠ .eof := by
  unfold nameKind
  split
  · nofun
  · exact wordKind_ne_eof d word

/-- A name without quotes, or a keyword, is a word. -/
theorem isWord_next (lexer : Lexer)
    (h : lexer.next.1.kind = .identifier ∨ ∃ keyword, lexer.next.1.kind = .keyword keyword) :
    lexer.next.1.piece.IsWord lexer.dialect := by
  unfold next at h ⊢
  split at h
  · rcases h with h | ⟨_, h⟩ <;> cases h
  next start _ =>
  split at h
  · rcases h with h | ⟨_, h⟩ <;> cases h
  next c rest hrest =>
  dsimp only at h ⊢
  have hword (hname : Scan.isNameStart lexer.dialect c)
      (hscan : Scan.ofChar lexer.dialect start c (start.after c rest) =
        Scan.word lexer.dialect start c (start.after c rest)) :
      (tokenOf start (Scan.ofChar lexer.dialect start c (start.after c rest))).piece.IsWord
        lexer.dialect := by
    have htext : start.textTo ((start.after c rest).skip
        (rest.takeWhile (Scan.isNameChar lexer.dialect)).length) =
          String.ofList (c :: rest.takeWhile (Scan.isNameChar lexer.dialect)) := by
      rw [← Cursor.skip_succ hrest, Cursor.textTo_skip, hrest, List.take_succ_cons,
        (List.prefix_iff_eq_take.1 (List.takeWhile_prefix _)).symm]
    rw [hscan, Scan.word_eq hrest]
    show Piece.IsWord lexer.dialect ⟨_, start.textTo _⟩
    rw [htext]
    exact .word hname fun x hx => List.mem_takeWhile_imp hx
  rcases h with h | ⟨keyword, h⟩
  · rcases Scan.ofChar_identifier h with ⟨hname, hscan⟩ | ⟨rfl, hdollar, hdigit⟩
    · exact hword hname hscan
    · let digits := rest.takeWhile Char.isDigit
      have htext : start.textTo ((start.after '$' rest).skip digits.length) =
          String.ofList ('$' :: digits) := by
        rw [← Cursor.skip_succ hrest, Cursor.textTo_skip, hrest, List.take_succ_cons,
          (List.prefix_iff_eq_take.1 (List.takeWhile_prefix _)).symm]
      rw [Scan.ofChar_parameter hdollar hdigit, Cursor.skipWhile_eq, Cursor.rest_after]
      show Piece.IsWord lexer.dialect ⟨_, start.textTo _⟩
      rw [htext]
      refine .parameter hdollar ?_ fun x hx => List.mem_takeWhile_imp hx
      have hfirst : rest.head?.any Char.isDigit := hdigit
      cases rest with
      | nil => cases hfirst
      | cons x rest => simp [digits, show x.isDigit from hfirst]
  · rcases Scan.ofChar_wordless start with hwordless | hscan
    · exact absurd h (hwordless keyword)
    · refine hword ?_ hscan
      rw [hscan, Scan.word_eq hrest] at h
      change nameKind lexer.dialect c _ = _ at h
      unfold nameKind wordKind at h
      split at h
      · cases h
      split at h
      · next hkeyword => rw [Scan.isNameStart, Scan.wordStart_of_keyword hkeyword, Bool.true_or]
      · cases h

theorem isWord_of_mem_tokens {lexer : Lexer} {t : Token} (ht : t ∈ lexer.tokens)
    (h : t.kind = .identifier ∨ ∃ keyword, t.kind = .keyword keyword) : t.piece.IsWord lexer.dialect := by
  fun_induction tokens lexer with
  | case1 lexer t' lexer' hnext hend =>
    obtain rfl := List.mem_singleton.1 ht
    have hword := isWord_next lexer
    rw [hnext] at hword
    exact hword h
  | case2 lexer t' lexer' hnext hend ih =>
    have hword := isWord_next lexer
    have hdialect := lexer.next_dialect
    rw [hnext] at hword hdialect
    rcases List.mem_cons.1 ht with rfl | ht
    · exact hword h
    · exact hdialect ▸ ih ht

/-- What closes a construct does not look like a variable. -/
theorem closing_next (lexer : Lexer) (h : lexer.next.1.kind.isOpen = false) :
    lexer.next.1.literal.startsWith "@" = false := by
  rw [String.startsWith_string_eq_false_iff]
  rcases TokenKind.eq_of_isOpen h with hk | hk
  · unfold next at hk ⊢
    split at hk
    · cases hk
    next start _ =>
    split at hk
    · cases hk
    next c rest hrest =>
    dsimp only at hk ⊢
    obtain rfl := Scan.eq_of_rightParen hk
    show ¬['@'] <+: (start.textTo ((start.after ')' rest).skip 0)).toList
    rw [← Cursor.skip_succ hrest, Cursor.textTo_skip, hrest, String.toList_ofList]
    show ¬['@'] <+: [')']
    decide
  · have hword := isWord_next lexer (.inr ⟨_, hk⟩)
    generalize hpiece : lexer.next.1.piece = x at hword
    have hkind : x.kind = .keyword .END := hpiece ▸ hk
    have hliteral : lexer.next.1.literal = x.literal := hpiece ▸ rfl
    rw [hliteral]
    cases hword with
    | parameter => cases hkind
    | @word c cs hstart =>
      dsimp only at hkind ⊢
      unfold nameKind at hkind
      split at hkind
      · cases hkind
      · next hprefix =>
        have halpha : c.isAlpha ∨ c = '_' := by
          simpa [Scan.isNameStart, hprefix] using hstart
        show ¬['@'] <+: (String.ofList (c :: cs)).toList
        rw [String.toList_ofList]
        rintro ⟨t, ht⟩
        obtain rfl : '@' = c := (List.cons.inj ht).1
        revert halpha
        decide

theorem closing_of_mem_tokens {lexer : Lexer} {t : Token} (ht : t ∈ lexer.tokens)
    (h : t.kind.isOpen = false) : t.literal.startsWith "@" = false := by
  fun_induction tokens lexer with
  | case1 lexer t' lexer' hnext hend =>
    obtain rfl := List.mem_singleton.1 ht
    have hclosing := lexer.closing_next
    rw [hnext] at hclosing
    exact hclosing h
  | case2 lexer t' lexer' hnext hend ih =>
    have hclosing := lexer.closing_next
    rw [hnext] at hclosing
    rcases List.mem_cons.1 ht with rfl | ht
    · exact hclosing h
    · exact ih ht

variable {x : Piece}

/-- A word starts with no blank, no quote, and no sign of a comment. -/
theorem bare_nameStart {c : Char} (h : Scan.isNameStart d c) : Bare d (c :: rest) := by
  rw [Scan.isNameStart, Bool.or_eq_true] at h
  rcases h with h | h
  · exact bare_cons (Scan.isBlank_of_isWordStart h) (Scan.ne_of_isWordStart h (by decide))
      (absurd · (Scan.ne_of_isWordStart h (by decide))) (absurd · (Scan.ne_of_isWordStart h (by decide)))
  · have hsign {c : Char} (hblank : Text.isBlank c = false) (hline : c ≠ '-') (hblock : c ≠ '/')
        (hhash : (c = '#' && d.hasHashComments) = false) : Bare d (c :: rest) := by
      intro here hr
      rw [Cursor.skipTrivia, hr, Cursor.skipTriviaRun]
      · rw [hblank, if_neg Bool.false_ne_true, hhash, if_neg Bool.false_ne_true]
      · exact fun _ heq => absurd heq hline
      · exact fun _ heq => absurd heq hblock
    obtain ⟨rfl, rfl | rfl⟩ | ⟨rfl, rfl⟩ | ⟨rfl, rfl | rfl⟩ := Scan.eq_of_isNamePrefix h <;>
      exact hsign (by decide) (by decide) (by decide) (by decide)

end Lexer

namespace Piece.IsWord

variable {d : Dialect} {x : Piece} {rest : List Char}

/-- A word in capitals is a word of the same kind. -/
theorem upper (h : x.IsWord d) : IsWord d ⟨x.kind, Text.upper x.literal⟩ := by
  have hchars {p : Char → Bool} (hp : Text.Caseless p) {cs : List Char} (hcs : ∀ x ∈ cs, p x) :
      ∀ x ∈ cs.map Char.toUpper, p x := by
    intro x hx
    obtain ⟨y, hy, rfl⟩ := List.mem_map.1 hx
    rw [hp _ y (Text.toLower_toUpper y)]
    exact hcs y hy
  cases h with
  | @word c cs hstart hcs =>
    have hcapital : Scan.isNameStart d c.toUpper := by
      rwa [Scan.caseless_isNameStart d _ c (Text.toLower_toUpper c)]
    have hword := word hcapital (hchars (Text.caseless_isNameChar d) hcs)
    have htext : String.ofList (c.toUpper :: cs.map Char.toUpper) =
        Text.upper (String.ofList (c :: cs)) := (Text.toList_upper_ofList (c :: cs)).symm
    rwa [htext, Lexer.nameKind_upper] at hword
  | @parameter digits hdollar hne hdigits =>
    have htext : String.ofList ('$' :: digits.map Char.toUpper) =
        Text.upper (String.ofList ('$' :: digits)) := (Text.toList_upper_ofList ('$' :: digits)).symm
    rw [← htext]
    exact parameter hdollar (by simpa using hne) (hchars Text.caseless_isDigit hdigits)

/-- A word is cut from a text where neither a character of a name nor a quote follows. -/
theorem pieces (h : x.IsWord d)
    (hrest : ∀ c ∈ rest.head?, Scan.isNameChar d c = false ∧ c ≠ '\x27') :
    Lexer.pieces d (x.literal.toList ++ rest) = x :: Lexer.pieces d rest := by
  cases h with
  | @word c cs hstart hcs =>
    have hquote (start : Cursor) : (start.after c (cs ++ rest)).peek? ≠ some '\x27' := by
      change (cs ++ rest).head? ≠ _
      intro hhead
      cases cs with
      | nil => exact (hrest _ hhead).2 rfl
      | cons e cs =>
        obtain rfl : e = '\x27' := by simpa using hhead
        have hname := hcs _ List.mem_cons_self
        cases d <;> exact absurd hname (by decide)
    have hrun : (cs ++ rest).takeWhile (Scan.isNameChar d) = cs :=
      Lexer.takeWhile_run hcs fun c hc => (hrest c hc).1
    have hscan (start : Cursor) (hs : start.rest = c :: (cs ++ rest)) :
        Scan.ofChar d start c (start.after c (cs ++ rest)) =
          ⟨Lexer.nameKind d c (String.ofList (c :: cs)), (start.after c (cs ++ rest)).skip cs.length,
            none⟩ := by
      rw [Scan.ofChar_nameStart hstart (hquote start), Scan.word_eq hs, hrun]
      rfl
    rw [String.toList_ofList]
    exact Lexer.pieces_of_scan (Lexer.bare_nameStart hstart) (Lexer.nameKind_ne_eof _ _ _) hscan
  | @parameter digits hdollar hne hdigits =>
    have hrun : (digits ++ rest).takeWhile Char.isDigit = digits := by
      refine Lexer.takeWhile_run hdigits fun c hc => ?_
      by_contra hdigit
      have hname : Scan.isNameChar d c :=
        Scan.isNameChar_of_isAlphanum (by simp [Char.isAlphanum, Bool.not_eq_false _ ▸ hdigit])
      rw [(hrest c hc).1] at hname
      cases hname
    have hfirst (start : Cursor) : (start.after '$' (digits ++ rest)).peek?.any Char.isDigit := by
      change (digits ++ rest).head?.any _
      cases digits with
      | nil => exact absurd rfl hne
      | cons e digits => exact hdigits e List.mem_cons_self
    have hscan (start : Cursor) (_ : start.rest = '$' :: (digits ++ rest)) :
        Scan.ofChar d start '$' (start.after '$' (digits ++ rest)) =
          ⟨.identifier, (start.after '$' (digits ++ rest)).skip digits.length, none⟩ := by
      rw [Scan.ofChar_parameter hdollar (hfirst start), Cursor.skipWhile_eq, Cursor.rest_after, hrun]
    have hbare : Bare d ('$' :: (digits ++ rest)) :=
      Lexer.bare_cons (by decide) (by decide) (absurd · (by decide)) (absurd · (by decide))
    rw [String.toList_ofList]
    have hkind : TokenKind.identifier ≠ .eof := by decide
    exact Lexer.pieces_of_scan hbare hkind hscan

end Piece.IsWord

end SqlFrontend

import SqlFrontend.Proofs.Document.Lexeme
import SqlFrontend.Proofs.Document.Value
import SqlFrontend.Proofs.Document.Written

/-!
# Documents as they are written

What a document is written as can be told without its text, as a `Written` value. The text is read as
that value.

Results:
* `Binary64.ReadsBack`: a number that is printed and read back exactly.
* `Document.IsPrintable`: a document that is in the range of its format, and reads back if it is a number.
* `Document.written`: the value that a document is written as.
* `Document.ofText?_write`: the text of a document writes this value.
-/

namespace SqlFrontend

/-! ## Numbers -/

/-- The number that is read where a number was printed. -/
def Binary64.reread? (x : Binary64) : Option Binary64 :=
  match Document.Numeral.take? (Decimal.write Decimal.document x).toList with
  | some (n, []) => n.fraction?
  | _ => none

/-- The number is printed and read back exactly. -/
def Binary64.ReadsBack (x : Binary64) : Prop := x.reread? = some x

instance (x : Binary64) : Decidable x.ReadsBack := inferInstanceAs (Decidable (_ = _))

namespace Document

/-- The numeral that a number of the format binary64 is printed as. -/
def Numeral.ofBinary64 (x : Binary64) : Numeral :=
  ((take? (Decimal.write Decimal.document x).toList).map Prod.fst).getD ⟨false, [], none, none⟩

theorem Numeral.take?_write {x : Binary64} (h : x.ReadsBack) :
    take? (Decimal.write Decimal.document x).toList = some (ofBinary64 x, []) ∧
      (ofBinary64 x).fraction? = some x := by
  rw [Binary64.ReadsBack, Binary64.reread?] at h
  rw [ofBinary64]
  split at h
  · next n hread =>
    rw [hread]
    exact ⟨rfl, h⟩
  · cases h

/-- A number is printed so that it is no integer. -/
theorem Numeral.value?_ofBinary64 {x : Binary64} (hfinite : x.isFinite) (h : x.ReadsBack) :
    (ofBinary64 x).value? = some (.float x) := by
  obtain ⟨hread, hvalue⟩ := take?_write h
  rw [value?, integer?_eq_none hread (Decimal.exists_isMark_write hfinite), hvalue]
  rfl

/-! ## Values of documents -/

mutual

/-- The value that a document is written as. -/
def written : Document → Written
  | null => .null
  | boolean b => .boolean b
  | integer n => .number (.ofInt n)
  | float x => .number (.ofBinary64 x)
  | string text => .string (some text)
  | array items => .array (writtenItems items)
  | object members => .object (writtenMembers members)

/-- The values that several documents are written as. -/
def writtenItems : List Document → List Written
  | [] => []
  | item :: rest => item.written :: writtenItems rest

/-- The members that several members are written as. -/
def writtenMembers : List Member → List WrittenMember
  | [] => []
  | ⟨key, value⟩ :: rest => ⟨some key, value.written⟩ :: writtenMembers rest

end

theorem writtenItems_eq_map (items : List Document) : writtenItems items = items.map written := by
  induction items with
  | nil => rfl
  | cons item items ih => rw [writtenItems, ih, List.map_cons]

end Document

/-- A member as it is written. -/
def Member.written (m : Member) : Document.WrittenMember := ⟨some m.key, m.value.written⟩

namespace Document

theorem writtenMembers_eq_map (members : List Member) :
    writtenMembers members = members.map Member.written := by
  induction members with
  | nil => rfl
  | cons member members ih =>
    obtain ⟨key, value⟩ := member
    rw [writtenMembers, ih, List.map_cons, Member.written]

/-! ## Texts -/

/-- The number that a document is, if it is one of the format binary64. -/
def float? : Document → Option Binary64
  | float x => some x
  | _ => none

/-- The numbers of the format binary64 in a document. -/
def floats (d : Document) : List Binary64 := d.parts.filterMap float?

/-- An integer has 64 bits, and a number is finite. -/
def InRange : Document → Prop
  | integer n => -2 ^ 63 ≤ n ∧ n < 2 ^ 64
  | float x => x.isFinite
  | _ => True

/-- A number is in the range of its format, and printed and read back exactly. -/
structure IsPrintable (d : Document) : Prop where
  inRange : d.InRange
  readsBack : ∀ x ∈ d.float?, x.ReadsBack

theorem isPrintable_of_floats {d : Document} (h : ∀ part ∈ d.parts, part.InRange)
    (hfloats : ∀ x ∈ d.floats, x.isFinite → x.ReadsBack) : ∀ part ∈ d.parts, part.IsPrintable := by
  refine fun part hpart => ⟨h part hpart, fun x hx => ?_⟩
  have hfinite : x.isFinite := by
    have hrange := h part hpart
    cases part with
    | float y =>
      cases hx
      exact hrange
    | _ => cases hx
  exact hfloats x (List.mem_filterMap.2 ⟨part, hpart, hx⟩) hfinite

/-- A document is written as a text that reads as its value. -/
def Shows (d : Document) : Prop := ∀ depth, Reads (writeAt depth d).toList d.written.lexemes

/-- The text of a member reads as its key and its value. -/
theorem Shows.member {m : Member} (h : m.value.Shows) (depth : ℕ) :
    Reads (writeMember depth m).toList
      (.string (some m.key) :: .colon :: m.value.written.lexemes) := by
  have hvalue : Reads (':' :: ([' '] ++ (writeAt depth m.value).toList))
      (.colon :: m.value.written.lexemes) :=
    ((h depth).blanks_append (List.forall_mem_singleton.2 rfl)).cons (by decide) fun _ => rfl
  have hmember := (reads_quoted m.key).append hvalue (Numeral.stops_cons (by decide) _)
  obtain ⟨key, value⟩ := m
  rw [writeMember]
  simpa using hmember

/-- One more line of a container: what stands in it, and what follows. -/
theorem reads_line {line text : List Char} {first lexemes : List Lexeme} (hline : Reads line first)
    (htext : Reads text lexemes) (hstops : Numeral.Stops text) (depth : ℕ) :
    Reads (',' :: ((lineBreak depth).toList ++ (line ++ text))) (.comma :: (first ++ lexemes)) :=
  ((hline.append htext hstops).lineBreak_append depth).cons (by decide) fun _ => rfl

theorem reads_writeItems {items : List Document} (h : ∀ item ∈ items, item.Shows) (depth : ℕ)
    {text : List Char} {lexemes : List Lexeme} (htext : Reads text lexemes)
    (hstops : Numeral.Stops text) :
    Reads ((writeItems depth items).toList ++ text)
        (Written.itemLexemes (writtenItems items) ++ lexemes) ∧
      Numeral.Stops ((writeItems depth items).toList ++ text) := by
  induction items with
  | nil => exact ⟨htext, hstops⟩
  | cons item items ih =>
    obtain ⟨hitem, hitems⟩ := List.forall_mem_cons.1 h
    obtain ⟨hrest, hstopsRest⟩ := ih hitems
    have hline := reads_line (hitem depth) hrest hstopsRest depth
    rw [writeItems, writtenItems, Written.itemLexemes]
    simp only [String.toList_append, List.append_assoc, List.cons_append]
    exact ⟨hline, Numeral.stops_cons (by decide) _⟩

theorem reads_writeMembers {members : List Member} (h : ∀ member ∈ members, member.value.Shows)
    (depth : ℕ) {text : List Char} {lexemes : List Lexeme} (htext : Reads text lexemes)
    (hstops : Numeral.Stops text) :
    Reads ((writeMembers depth members).toList ++ text)
        (Written.memberLexemes (writtenMembers members) ++ lexemes) ∧
      Numeral.Stops ((writeMembers depth members).toList ++ text) := by
  induction members with
  | nil => exact ⟨htext, hstops⟩
  | cons member members ih =>
    obtain ⟨hmember, hmembers⟩ := List.forall_mem_cons.1 h
    obtain ⟨hrest, hstopsRest⟩ := ih hmembers
    have hline := reads_line (hmember.member depth) hrest hstopsRest depth
    obtain ⟨key, value⟩ := member
    rw [writeMembers, writtenMembers, Written.memberLexemes]
    simp only [String.toList_append, List.append_assoc, List.cons_append] at hline ⊢
    exact ⟨hline, Numeral.stops_cons (by decide) _⟩

theorem shows_array {items : List Document} (h : ∀ item ∈ items, item.Shows) :
    (array items).Shows := by
  intro depth
  have hclose : Reads [']'] [.closeArray] := Reads.nil.cons (by decide) fun _ => rfl
  cases items with
  | nil =>
    have htext : "[]".toList = '[' :: [']'] := rfl
    rw [writeAt, htext]
    exact hclose.cons (by decide) fun _ => rfl
  | cons item items =>
    obtain ⟨hitem, hitems⟩ := List.forall_mem_cons.1 h
    obtain ⟨hrest, hstops⟩ := reads_writeItems hitems (depth + 1)
      (hclose.lineBreak_append depth) (stops_lineBreak_append depth _)
    have hall := (((hitem (depth + 1)).append hrest hstops).lineBreak_append (depth + 1)).cons
      (c := '[') (by decide) fun _ => rfl
    rw [writeAt, written, writtenItems, Written.lexemes]
    simpa using hall

theorem shows_object {members : List Member} (h : ∀ member ∈ members, member.value.Shows) :
    (object members).Shows := by
  intro depth
  have hclose : Reads ['\x7d'] [.closeObject] := Reads.nil.cons (by decide) fun _ => rfl
  cases members with
  | nil =>
    have htext : "\x7b\x7d".toList = '\x7b' :: ['\x7d'] := rfl
    rw [writeAt, htext]
    exact hclose.cons (by decide) fun _ => rfl
  | cons member members =>
    obtain ⟨hmember, hmembers⟩ := List.forall_mem_cons.1 h
    obtain ⟨hrest, hstops⟩ := reads_writeMembers hmembers (depth + 1)
      (hclose.lineBreak_append depth) (stops_lineBreak_append depth _)
    have hall := (((hmember.member (depth + 1)).append hrest hstops).lineBreak_append
      (depth + 1)).cons (c := '\x7b') (by decide) fun _ => rfl
    obtain ⟨key, value⟩ := member
    rw [writeAt, written, writtenMembers, Written.lexemes]
    simpa using hall

theorem shows {d : Document} (h : ∀ part ∈ d.parts, part.IsPrintable) : d.Shows := by
  induction d using induct with
  | null => exact fun depth => reads_null
  | boolean b => exact fun depth => reads_boolean b
  | integer n => exact fun depth => reads_numeral (Numeral.take?_toString n)
  | float x =>
    have hx := (h (.float x) List.mem_cons_self).readsBack x rfl
    exact fun depth => reads_numeral (Numeral.take?_write hx).1
  | string text => exact fun depth => reads_quoted text
  | array items ih =>
    exact shows_array fun item hitem => ih item hitem ((forall_parts_array.1 h).2 item hitem)
  | object members ih =>
    exact shows_object fun member hmember =>
      ih member hmember ((forall_parts_object.1 h).2 member hmember)

/-- The text of a document writes the value that the document is written as. -/
theorem ofText?_write {d : Document} (h : ∀ part ∈ d.parts, part.IsPrintable) :
    Written.ofText? d.write = some d.written := by
  rw [Written.ofText?, lexemes?, write, (shows h 0).lexemesFrom?_eq_some, Option.bind_some,
    Written.ofLexemes?_lexemes]

end Document

end SqlFrontend

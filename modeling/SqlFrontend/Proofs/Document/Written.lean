import Mathlib.Data.List.Basic
import Mathlib.Order.Lattice.Nat
import SqlFrontend.Document.Written

/-!
# Values as they are written

A value as it is written is a tree over its lexemes: it can be taken apart into lexemes again, and these
are read as the value.

Results:
* `Written.induct`: induction over values.
* `Written.depth`: how many containers are nested in a value.
* `Written.lexemes`: the lexemes of a value.
* `Written.ofLexemes?_lexemes`: they are read as the value.
-/

namespace SqlFrontend.Document

namespace Written

/-- What holds of a container if it holds of all that is in it, and of all else, holds of every value. -/
theorem induct {motive : Written → Prop} (null : motive .null) (boolean : ∀ b, motive (.boolean b))
    (number : ∀ n, motive (.number n)) (string : ∀ text, motive (.string text))
    (array : ∀ items, (∀ item ∈ items, motive item) → motive (.array items))
    (object : ∀ members, (∀ member ∈ members, motive member.value) → motive (.object members)) :
    ∀ w, motive w :=
  @Written.rec motive (fun member => motive member.value) (fun items => ∀ item ∈ items, motive item)
    (fun members => ∀ member ∈ members, motive member.value) null boolean number string array object
    (fun _ _ h => h)
    (List.forall_mem_nil _) (fun _ _ h hs => List.forall_mem_cons.2 ⟨h, hs⟩)
    (List.forall_mem_nil _) (fun _ _ h hs => List.forall_mem_cons.2 ⟨h, hs⟩)

/-! ## Nesting -/

mutual

/-- How many containers are nested in a value, itself included. -/
def depth : Written → ℕ
  | array items => depthOfItems items + 1
  | object members => depthOfMembers members + 1
  | _ => 0

/-- How many containers are nested in the deepest of several values. -/
def depthOfItems : List Written → ℕ
  | [] => 0
  | item :: rest => max item.depth (depthOfItems rest)

/-- How many containers are nested in the deepest of the values of several members. -/
def depthOfMembers : List WrittenMember → ℕ
  | [] => 0
  | ⟨_, value⟩ :: rest => max value.depth (depthOfMembers rest)

end

theorem depth_array_le {items : List Written} {k : ℕ} :
    (array items).depth ≤ k + 1 ↔ ∀ item ∈ items, item.depth ≤ k := by
  rw [depth, Nat.add_le_add_iff_right]
  induction items with
  | nil => simp [depthOfItems]
  | cons item items ih => rw [depthOfItems, max_le_iff, ih, List.forall_mem_cons]

theorem depth_object_le {members : List WrittenMember} {k : ℕ} :
    (object members).depth ≤ k + 1 ↔ ∀ member ∈ members, member.value.depth ≤ k := by
  rw [depth, Nat.add_le_add_iff_right]
  induction members with
  | nil => simp [depthOfMembers]
  | cons member members ih =>
    obtain ⟨key, value⟩ := member
    rw [depthOfMembers, max_le_iff, ih, List.forall_mem_cons]

/-! ## Lexemes -/

mutual

/-- The lexemes of a value. -/
def lexemes : Written → List Lexeme
  | null => [.null]
  | boolean b => [.boolean b]
  | number n => [.number n]
  | string text => [.string text]
  | array [] => [.openArray, .closeArray]
  | array (item :: rest) => .openArray :: item.lexemes ++ itemLexemes rest ++ [.closeArray]
  | object [] => [.openObject, .closeObject]
  | object (⟨key, value⟩ :: rest) =>
    .openObject :: .string key :: .colon :: value.lexemes ++ memberLexemes rest ++ [.closeObject]

/-- The lexemes of the items behind the first one. -/
def itemLexemes : List Written → List Lexeme
  | [] => []
  | item :: rest => .comma :: item.lexemes ++ itemLexemes rest

/-- The lexemes of the members behind the first one. -/
def memberLexemes : List WrittenMember → List Lexeme
  | [] => []
  | ⟨key, value⟩ :: rest =>
    .comma :: .string key :: .colon :: value.lexemes ++ memberLexemes rest

end

/-- A value starts with a lexeme that does not close an array. -/
theorem exists_lexemes_eq_cons (w : Written) :
    ∃ lexeme rest, w.lexemes = lexeme :: rest ∧ lexeme ≠ .closeArray := by
  cases w with
  | null => exact ⟨_, _, rfl, by simp⟩
  | boolean b => exact ⟨_, _, rfl, by simp⟩
  | number n => exact ⟨_, _, rfl, by simp⟩
  | string text => exact ⟨_, _, rfl, by simp⟩
  | array items => cases items <;> exact ⟨_, _, rfl, by simp⟩
  | object members =>
    rcases members with _ | ⟨⟨key, value⟩, members⟩
    · exact ⟨_, _, rfl, by simp⟩
    · exact ⟨_, _, rfl, by simp⟩

end Written

/-! ## Reading -/

namespace Reading

/-- The reading behind several lexemes. -/
def run? (reading : Reading) (lexemes : List Lexeme) : Option Reading := lexemes.foldlM step? reading

theorem run?_cons {reading next : Reading} {lexeme : Lexeme} (h : reading.step? lexeme = some next)
    (rest : List Lexeme) : reading.run? (lexeme :: rest) = next.run? rest := by
  rw [run?, List.foldlM_cons, h]
  rfl

/-- The lexemes of a value lead from before it to behind it. -/
def Reads (w : Written) : Prop :=
  ∀ frames rest, (value frames).run? (w.lexemes ++ rest) = (behind frames w).run? rest

theorem Reads.firstItem {w : Written} (h : Reads w) (frames : List Frame) (rest : List Lexeme) :
    (firstItem frames).run? (w.lexemes ++ rest) = (behind (.item [] :: frames) w).run? rest := by
  rw [← h]
  obtain ⟨lexeme, others, hlexemes, hne⟩ := w.exists_lexemes_eq_cons
  have hstep : (Reading.firstItem frames).step? lexeme = (value (.item [] :: frames)).step? lexeme := by
    cases lexeme <;> first | rfl | exact absurd rfl hne
  rw [hlexemes, List.cons_append, run?, run?, List.foldlM_cons, List.foldlM_cons, hstep]

/-- An array is read to its end. -/
theorem run?_itemLexemes {items : List Written} (h : ∀ item ∈ items, Reads item)
    (before : List Written) (w : Written) (frames : List Frame) (rest : List Lexeme) :
    (behind (.item before :: frames) w).run? (Written.itemLexemes items ++ .closeArray :: rest) =
      (behind frames (.array ((w :: before).reverse ++ items))).run? rest := by
  induction items generalizing before w with
  | nil =>
    rw [List.append_nil]
    exact run?_cons rfl rest
  | cons item items ih =>
    obtain ⟨hitem, hitems⟩ := List.forall_mem_cons.1 h
    rw [Written.itemLexemes]
    simp only [List.cons_append, List.append_assoc]
    rw [run?_cons rfl, hitem, ih hitems, List.reverse_cons, List.append_assoc]
    rfl

/-- An object is read to its end. -/
theorem run?_memberLexemes {members : List WrittenMember} (h : ∀ member ∈ members, Reads member.value)
    (before : List WrittenMember) (key : Option String) (w : Written) (frames : List Frame)
    (rest : List Lexeme) :
    (behind (.member before key :: frames) w).run?
        (Written.memberLexemes members ++ .closeObject :: rest) =
      (behind frames (.object ((⟨key, w⟩ :: before : List WrittenMember).reverse ++ members))).run?
        rest := by
  induction members generalizing before key w with
  | nil =>
    rw [List.append_nil]
    exact run?_cons rfl rest
  | cons member members ih =>
    obtain ⟨hmember, hmembers⟩ := List.forall_mem_cons.1 h
    obtain ⟨key', value⟩ := member
    rw [Written.memberLexemes]
    simp only [List.cons_append, List.append_assoc]
    rw [run?_cons rfl, run?_cons rfl, run?_cons rfl, hmember, ih hmembers, List.reverse_cons,
      List.append_assoc]
    rfl

theorem reads (w : Written) : Reads w := by
  induction w using Written.induct with
  | null => exact fun frames rest => run?_cons rfl rest
  | boolean b => exact fun frames rest => run?_cons rfl rest
  | number n => exact fun frames rest => run?_cons rfl rest
  | string text => exact fun frames rest => run?_cons rfl rest
  | array items ih =>
    intro frames rest
    cases items with
    | nil =>
      rw [Written.lexemes, List.cons_append, run?_cons rfl]
      exact run?_cons rfl rest
    | cons item items =>
      obtain ⟨hitem, hitems⟩ := List.forall_mem_cons.1 ih
      rw [Written.lexemes]
      simp only [List.cons_append, List.append_assoc]
      rw [run?_cons rfl, hitem.firstItem]
      exact run?_itemLexemes hitems [] item frames rest
  | object members ih =>
    intro frames rest
    cases members with
    | nil =>
      rw [Written.lexemes, List.cons_append, run?_cons rfl]
      exact run?_cons rfl rest
    | cons member members =>
      obtain ⟨hmember, hmembers⟩ := List.forall_mem_cons.1 ih
      obtain ⟨key, value⟩ := member
      rw [Written.lexemes]
      simp only [List.cons_append, List.append_assoc]
      rw [run?_cons rfl, run?_cons rfl, run?_cons rfl, hmember]
      exact run?_memberLexemes hmembers [] key value frames rest

end Reading

/-- The lexemes of a value are read as the value. -/
theorem Written.ofLexemes?_lexemes (w : Written) : ofLexemes? w.lexemes = some w := by
  have h := Reading.reads w [] []
  rw [List.append_nil, Reading.run?] at h
  rw [ofLexemes?, h]
  rfl

end SqlFrontend.Document

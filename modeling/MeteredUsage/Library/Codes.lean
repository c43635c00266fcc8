import Mathlib.Data.List.Basic

/-! Codes whose words can be told from the front of any text, and what such codes are made of: words
of one width, words behind their length, tagged options, pairs and lists of a known length. -/

namespace MeteredUsage.Library.Codes

variable {Item Other Size Symbol : Type*} {valid : Item → Prop} {code : Item → List Symbol}

/-- Texts that begin with the words of two items begin with one word, and go on alike. -/
def Splits (valid : Item → Prop) (code : Item → List Symbol) : Prop :=
  ∀ first second, valid first → valid second → ∀ rest other,
    code first ++ rest = code second ++ other → first = second ∧ rest = other

theorem Splits.injective (splits : Splits valid code) {first second : Item} (left : valid first)
    (right : valid second) (same : code first = code second) : first = second := by
  have texts : code first ++ [] = code second ++ [] := by rw [same]
  exact (splits first second left right [] [] texts).1

theorem splits_of_width {width : Nat} (length : ∀ item, (code item).length = width)
    (injective : ∀ first second, valid first → valid second → code first = code second →
      first = second) : Splits valid code := by
  intro first second left right rest other same
  obtain ⟨words, rests⟩ := List.append_inj same ((length first).trans (length second).symm)
  exact ⟨injective first second left right words, rests⟩

/-- Words of any length, each behind the size it is of. -/
theorem Splits.framed {fits : Size → Prop} {header : Size → List Symbol}
    (splits : Splits fits header) (size : Item → Size) {body : Item → List Symbol}
    (lengths : ∀ first second, size first = size second → (body first).length = (body second).length)
    (injective : ∀ first second, body first = body second → first = second) :
    Splits (fun item => fits (size item)) fun item => header (size item) ++ body item := by
  intro first second left right rest other same
  rw [List.append_assoc, List.append_assoc] at same
  obtain ⟨sizes, later⟩ := splits _ _ left right _ _ same
  obtain ⟨bodies, rests⟩ := List.append_inj later (lengths first second sizes)
  exact ⟨injective first second bodies, rests⟩

/-- An item that may be absent, behind a symbol that tells whether it is. -/
theorem Splits.option (splits : Splits valid code) {absent present : Symbol}
    (apart : absent ≠ present) :
    Splits (fun item : Option Item => ∀ value ∈ item, valid value)
      fun item => item.elim [absent] fun value => present :: code value := by
  intro first second left right rest other same
  cases first with
  | none =>
    cases second with
    | none => exact ⟨rfl, (List.cons.inj same).2⟩
    | some value => exact absurd (List.cons.inj same).1 apart
  | some value =>
    cases second with
    | none => exact absurd (List.cons.inj same).1 apart.symm
    | some number =>
      obtain ⟨values, rests⟩ := splits value number (left value rfl) (right number rfl) rest other
        (List.cons.inj same).2
      exact ⟨congrArg some values, rests⟩

theorem Splits.append {fits : Other → Prop} {next : Other → List Symbol} (splits : Splits valid code)
    (later : Splits fits next) :
    Splits (fun pair : Item × Other => valid pair.1 ∧ fits pair.2)
      fun pair => code pair.1 ++ next pair.2 := by
  intro first second left right rest other same
  rw [List.append_assoc, List.append_assoc] at same
  obtain ⟨heads, tails⟩ := splits _ _ left.1 right.1 _ _ same
  obtain ⟨ends, rests⟩ := later _ _ left.2 right.2 _ _ tails
  exact ⟨Prod.ext heads ends, rests⟩

/-- So many items, one after another. -/
theorem Splits.flatMap (splits : Splits valid code) (count : Nat) :
    Splits (fun items : List Item => items.length = count ∧ ∀ item ∈ items, valid item)
      fun items => items.flatMap code := by
  induction count with
  | zero =>
    intro first second left right rest other same
    obtain rfl := List.length_eq_zero_iff.mp left.1
    obtain rfl := List.length_eq_zero_iff.mp right.1
    exact ⟨rfl, same⟩
  | succ count ih =>
    intro first second left right rest other same
    obtain ⟨head, tail, rfl⟩ := List.exists_cons_of_length_eq_add_one left.1
    obtain ⟨next, later, rfl⟩ := List.exists_cons_of_length_eq_add_one right.1
    simp only [List.flatMap_cons, List.append_assoc, List.length_cons, Nat.add_right_cancel_iff,
      List.forall_mem_cons] at left right same
    obtain ⟨heads, tails⟩ := splits head next left.2.1 right.2.1 _ _ same
    obtain ⟨items, rests⟩ := ih tail later ⟨left.1, left.2.2⟩ ⟨right.1, right.2.2⟩ _ _ tails
    exact ⟨by rw [heads, items], rests⟩

end MeteredUsage.Library.Codes

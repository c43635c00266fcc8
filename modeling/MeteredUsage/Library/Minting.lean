import MeteredUsage.Library.Transaction

/-! What a transaction keeps of its data where every id it is handed is of one kind. -/

namespace MeteredUsage.Library.Minting
open MeteredUsage.Library.Transaction

variable {Failure Data Value Result Item : Type} {kind : Nat → Prop} {good : Data → Prop}

/-- The data are good, and every id to come is of the kind. -/
structure Supplied (kind : Nat → Prop) (good : Data → Prop) (session : Session Data) : Prop where
  ids : ∀ next, kind (session.ids next)
  data : good session.data

def Keeps (kind : Nat → Prop) (good : Data → Prop) (body : Tx Failure Data Value) : Prop :=
  Carries (Supplied kind good) body fun _ => Supplied kind good

theorem Keeps.bind {first : Tx Failure Data Value} {rest : Value → Tx Failure Data Result}
    (head : Keeps kind good first) (tail : ∀ value, Keeps kind good (rest value)) :
    Keeps kind good (first >>= rest) := Carries.bind head tail

theorem Keeps.pure (value : Value) : Keeps kind good (pure value : Tx Failure Data Value) :=
  Carries.pure fun _ supplied => supplied

theorem Keeps.onlyIf {condition : Prop} [Decidable condition] {body : Tx Failure Data Unit}
    (taken : Keeps kind good body) : Keeps kind good (Transaction.onlyIf condition body) := by
  unfold Transaction.onlyIf
  split
  · exact taken
  · exact .pure ()

theorem Keeps.statement {failure : Failure} {effect : Data → Except Failure (Value × Data)}
    (kept : ∀ data value next, good data → effect data = .ok (value, next) → good next) :
    Keeps kind good (Transaction.statement failure effect) :=
  Carries.statement fun _ _ _ supplied answered => ⟨supplied.ids, kept _ _ _ supplied.data answered⟩

theorem Keeps.query {failure : Failure} (read : Data → Value) :
    Keeps kind good (Transaction.query failure read : Tx Failure Data Value) :=
  Carries.query fun _ supplied => ⟨supplied.ids, supplied.data⟩

theorem Keeps.update {failure : Failure} {change : Data → Data}
    (kept : ∀ data, good data → good (change data)) :
    Keeps kind good (Transaction.update failure change) := by
  apply Keeps.statement
  intro data value next before same
  cases same
  exact kept data before

theorem Keeps.reading : Keeps kind good (Transaction.reading : Tx Failure Data Int) :=
  Carries.reading fun _ supplied => ⟨supplied.ids, supplied.data⟩

theorem Keeps.nextId_then {rest : Nat → Tx Failure Data Result}
    (later : ∀ id, kind id → Keeps kind good (rest id)) :
    Keeps kind good (Transaction.nextId >>= rest) := by
  have taken : Carries (Supplied kind good) (Transaction.nextId : Tx Failure Data Nat)
      fun id session => kind id ∧ Supplied kind good session :=
    Carries.nextId fun session supplied =>
      ⟨supplied.ids 0, fun next => supplied.ids (next + 1), supplied.data⟩
  apply taken.bind
  intro id
  constructor
  intro session value finish both ran
  exact (later id both.1).ends session value finish both.2 ran

theorem Keeps.commit (failure : Failure) (value : Value) :
    Keeps kind good (Transaction.commit failure value : Tx Failure Data (Ending Value)) := by
  apply Keeps.statement
  intro data value next before same
  cases same
  exact before

theorem Keeps.forM {items : List Item} {body : Item → Tx Failure Data Unit}
    (each : ∀ item, Keeps kind good (body item)) : Keeps kind good (forM items body) := by
  induction items with
  | nil => exact .pure ()
  | cons item rest ih =>
    rw [List.forM_cons]
    exact (each item).bind fun _ => ih

theorem Keeps.foldlM {items : List Item} {body : Value → Item → Tx Failure Data Value}
    (each : ∀ value item, Keeps kind good (body value item)) (start : Value) :
    Keeps kind good (items.foldlM body start) := by
  induction items generalizing start with
  | nil => exact .pure start
  | cons item rest ih =>
    rw [List.foldlM_cons]
    exact (each start item).bind fun _ => ih _

end MeteredUsage.Library.Minting

import MeteredUsage.Library.Transaction

/-! Parts of the data a transaction leaves alone: where no statement of it changes what a view of
the data shows, neither does the transaction. -/

namespace MeteredUsage.Library.Untouched
open MeteredUsage.Library.Transaction

variable {Failure Data View Value Result Item : Type} {view : Data → View}

/-- Whatever the view shows before the transaction, it shows after it. -/
def Leaves (view : Data → View) (body : Tx Failure Data Value) : Prop :=
  ∀ shown, Holds (fun data => view data = shown) body fun _ data => view data = shown

theorem Leaves.bind {first : Tx Failure Data Value} {rest : Value → Tx Failure Data Result}
    (head : Leaves view first) (tail : ∀ value, Leaves view (rest value)) :
    Leaves view (first >>= rest) := fun shown => (head shown).bind fun value => tail value shown

theorem Leaves.pure (value : Value) : Leaves view (pure value : Tx Failure Data Value) := fun _ =>
  Holds.pure fun _ same => same

theorem Leaves.refuse (failure : Failure) :
    Leaves view (Transaction.refuse failure : Tx Failure Data Value) := fun _ => Holds.refuse

theorem Leaves.refuseIf (condition : Prop) [Decidable condition] (failure : Failure) :
    Leaves view (Transaction.refuseIf condition failure : Tx Failure Data Unit) := fun _ =>
  Holds.refuseIf fun _ _ same => same

theorem Leaves.require (failure : Failure) (value : Option Value) :
    Leaves view (Transaction.require failure value : Tx Failure Data Value) := fun _ =>
  Holds.require fun _ _ _ same => same

theorem Leaves.onlyIf {condition : Prop} [Decidable condition] {body : Tx Failure Data Unit}
    (taken : Leaves view body) : Leaves view (Transaction.onlyIf condition body) := fun shown =>
  Holds.onlyIf (fun _ => taken shown) fun _ _ same => same

theorem Leaves.query {failure : Failure} (read : Data → Value) :
    Leaves view (Transaction.query failure read : Tx Failure Data Value) := fun _ =>
  Holds.query fun _ same => same

theorem Leaves.update {failure : Failure} {change : Data → Data}
    (kept : ∀ data, view (change data) = view data) :
    Leaves view (Transaction.update failure change) := fun _ =>
  Holds.update fun data same => (kept data).trans same

theorem Leaves.reading : Leaves view (Transaction.reading : Tx Failure Data Int) := fun _ =>
  Holds.reading fun _ _ same => same

theorem Leaves.nextId : Leaves view (Transaction.nextId : Tx Failure Data Nat) := fun _ =>
  Holds.nextId fun _ _ same => same

theorem Leaves.commit (failure : Failure) (value : Value) :
    Leaves view (Transaction.commit failure value : Tx Failure Data (Ending Value)) := fun _ =>
  Holds.commit fun _ same => same

theorem Leaves.forM {items : List Item} {body : Item → Tx Failure Data Unit}
    (each : ∀ item, Leaves view (body item)) : Leaves view (forM items body) := fun shown =>
  Holds.forM fun item _ => each item shown

theorem Leaves.foldlM {items : List Item} {body : Value → Item → Tx Failure Data Value}
    (each : ∀ value item, Leaves view (body value item)) (start : Value) :
    Leaves view (items.foldlM body start) := fun shown =>
  Holds.foldlM_keeps fun item _ value => each value item shown

end MeteredUsage.Library.Untouched

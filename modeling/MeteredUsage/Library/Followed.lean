import MeteredUsage.Library.OrderedLog

/-! Copies kept up to date by following a log. A reader keeps a copy of each subject and the key it
has read the log up to, and reads a subject again once an entry has named it. A copy that is not
known to be out of date, and that no entry after that key names, is current. -/

namespace MeteredUsage.Library.Followed
open MeteredUsage.Library.OrderedLog

variable {Entry Key Subject : Type*} [LinearOrder Key] (key : Entry → Key) (names : Entry → Subject)

/-- The copy of a subject is known to be out of date, an entry the reader has still to read names
the subject, or the copy is current. -/
def Owed (log : List Entry) (cursor : Key) (due current : Prop) (subject : Subject) : Prop :=
  due ∨ (∃ entry ∈ log, cursor < key entry ∧ names entry = subject) ∨ current

variable {key names} {log more : List Entry} {cursor next : Key} {due current later : Prop} {subject : Subject}

/-- A write that names every subject it changes, in entries above all those that can be read. -/
theorem Owed.written (owed : Owed key names log cursor due current subject)
    (above : ∀ entry ∈ more, cursor < key entry)
    (named : current → later ∨ ∃ entry ∈ more, names entry = subject) :
    Owed key names (log ++ more) cursor due later subject := by
  rcases owed with known | ⟨entry, member, unread, same⟩ | fresh
  · exact .inl known
  · exact .inr (.inl ⟨entry, List.mem_append_left _ member, unread, same⟩)
  · rcases named fresh with kept | ⟨entry, member, same⟩
    · exact .inr (.inr kept)
    · exact .inr (.inl ⟨entry, List.mem_append_right _ member, above entry member, same⟩)

/-- Reading on from the cursor marks what the entries name; the rest is still to be read. -/
theorem Owed.followed {wanted : Entry → Bool} (owed : Owed key names log cursor due current subject)
    (asked : ∀ entry ∈ log, names entry = subject → wanted entry = true) :
    Owed key names log next
      (due ∨ ∃ entry ∈ window key log cursor next wanted, names entry = subject) current subject := by
  rcases owed with known | ⟨entry, member, unread, same⟩ | fresh
  · exact .inl (.inl known)
  · rcases le_or_gt (key entry) next with read | ahead
    · exact .inl (.inr ⟨entry, mem_window.mpr ⟨member, unread, read, asked entry member same⟩, same⟩)
    · exact .inr (.inl ⟨entry, member, ahead, same⟩)
  · exact .inr (.inr fresh)

/-- A reader that finds nothing more to read has a current copy of all it need not read again. -/
theorem Owed.current_of_window {wanted : Entry → Bool} (owed : Owed key names log cursor due current subject)
    (bounded : ∀ entry ∈ log, key entry ≤ next)
    (asked : ∀ entry ∈ log, names entry = subject → wanted entry = true)
    (nothing : window key log cursor next wanted = []) (kept : ¬due) : current := by
  rcases owed with known | ⟨entry, member, unread, same⟩ | fresh
  · exact absurd known kept
  · have found := mem_window.mpr ⟨member, unread, bounded entry member, asked entry member same⟩
    rw [nothing] at found
    cases found
  · exact fresh

end MeteredUsage.Library.Followed

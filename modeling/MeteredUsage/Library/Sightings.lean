import Mathlib.Data.List.Induction
import Mathlib.Data.List.MinMax
import Mathlib.Data.List.Sort
import Mathlib.Order.Basic

/-! An item as listings report it. Each listing has a stamp and names the item or leaves it out;
one that names it replaces what an older one said, and one that leaves it out marks it removed
unless a newer one has named it. Listings may be followed in any order, and the end of the order
decides what depends on it: the mark, and the plan a name may leave out. -/

namespace MeteredUsage.Library.Sightings

variable {Stamp Row Plan : Type*} [LinearOrder Stamp]

/-- What one listing reports of the item. -/
structure Sighting (Stamp Row Plan : Type*) where
  at_ : Stamp
  named : Option (Row × Option Plan)

/-- What is stored of the item. -/
structure Entry (Stamp Row Plan : Type*) where
  seen : Stamp
  row : Row
  plan : Option Plan
  removed : Option Stamp

def Sighting.plan (sighting : Sighting Stamp Row Plan) : Option Plan := sighting.named.bind Prod.snd

/-- An item that is known, after one more listing. -/
def Entry.follow (entry : Entry Stamp Row Plan) (sighting : Sighting Stamp Row Plan) :
    Entry Stamp Row Plan :=
  match sighting.named with
  | some (row, plan) =>
    if entry.seen ≤ sighting.at_ then ⟨sighting.at_, row, plan.or entry.plan, none⟩ else entry
  | none =>
    if entry.removed.isNone && decide (entry.seen < sighting.at_) then
      { entry with removed := some sighting.at_ }
    else entry

def follow (entry : Option (Entry Stamp Row Plan)) (sighting : Sighting Stamp Row Plan) :
    Option (Entry Stamp Row Plan) :=
  match entry with
  | some known => some (known.follow sighting)
  | none => sighting.named.map fun named => ⟨sighting.at_, named.1, named.2, none⟩

def followAll (sightings : List (Sighting Stamp Row Plan)) : Option (Entry Stamp Row Plan) :=
  sightings.foldl follow none

/-- What one listing reports of an item it names more than once: the last row, and the last plan
there is. -/
def lastNamed (names : List (Row × Option Plan)) : Option (Row × Option Plan) :=
  names.foldl (fun last named => some (named.1, named.2.or (last.bind Prod.snd))) none

/-- The sighting names the item, and no newer one has before it. -/
def Accepted (sightings : List (Sighting Stamp Row Plan)) (sighting : Sighting Stamp Row Plan) : Prop :=
  ∃ before after, sightings = before ++ sighting :: after ∧ sighting.named.isSome = true ∧
    ∀ earlier ∈ before, earlier.named.isSome = true → earlier.at_ ≤ sighting.at_

/-- The newest sighting that names the item, between those before and after it. -/
structure Newest (sightings before : List (Sighting Stamp Row Plan))
    (newest : Sighting Stamp Row Plan) (after : List (Sighting Stamp Row Plan)) : Prop where
  split : sightings = before ++ newest :: after
  named : newest.named.isSome = true
  earlier : ∀ sighting ∈ before, sighting.named.isSome = true → sighting.at_ ≤ newest.at_
  later : ∀ sighting ∈ after, sighting.named.isSome = true → sighting.at_ < newest.at_

/-- What is stored once the sightings are followed. -/
structure Stored (sightings : List (Sighting Stamp Row Plan)) (entry : Entry Stamp Row Plan) :
    Prop where
  newest : ∃ before newest after, Newest sightings before newest after ∧ newest.at_ = entry.seen ∧
    newest.named.map Prod.fst = some entry.row ∧
    entry.removed = (after.find? fun sighting => decide (newest.at_ < sighting.at_)).map Sighting.at_
  planned : ∀ plan, entry.plan = some plan → ∃ source, Accepted sightings source ∧
    source.plan = some plan ∧
    ∀ other, Accepted sightings other → other.plan.isSome = true → other.at_ ≤ source.at_
  unplanned : entry.plan = none → ∀ other, Accepted sightings other → other.plan = none

variable {sightings : List (Sighting Stamp Row Plan)} {sighting : Sighting Stamp Row Plan}

theorem accepted_append {other : Sighting Stamp Row Plan} :
    Accepted (sightings ++ [sighting]) other ↔ Accepted sightings other ∨
      other = sighting ∧ sighting.named.isSome = true ∧
        ∀ earlier ∈ sightings, earlier.named.isSome = true → earlier.at_ ≤ sighting.at_ := by
  constructor
  · rintro ⟨before, after, split, named, newest⟩
    rcases List.eq_nil_or_concat after with rfl | ⟨rest, last, rfl⟩
    · obtain ⟨rfl, same⟩ := List.append_inj' split rfl
      obtain rfl := (List.cons.inj same).1
      exact .inr ⟨rfl, named, newest⟩
    · rw [List.concat_eq_append, ← List.cons_append, ← List.append_assoc] at split
      obtain ⟨rfl, _⟩ := List.append_inj' split rfl
      exact .inl ⟨before, rest, rfl, named, newest⟩
  · rintro (⟨before, after, rfl, named, newest⟩ | ⟨rfl, named, newest⟩)
    · exact ⟨before, after ++ [sighting], by simp, named, newest⟩
    · exact ⟨sightings, [], rfl, named, newest⟩

theorem Newest.le {before after : List (Sighting Stamp Row Plan)} {newest : Sighting Stamp Row Plan}
    (split : Newest sightings before newest after) :
    ∀ other ∈ sightings, other.named.isSome = true → other.at_ ≤ newest.at_ := by
  intro other member named
  rw [split.split] at member
  rcases List.mem_append.mp member with earlier | member
  · exact split.earlier other earlier named
  · rcases List.mem_cons.mp member with rfl | later
    · exact le_rfl
    · exact (split.later other later named).le

theorem Accepted.named {other : Sighting Stamp Row Plan} (accepted : Accepted sightings other) :
    other ∈ sightings ∧ other.named.isSome = true := by
  obtain ⟨before, after, rfl, named, _⟩ := accepted
  exact ⟨by simp, named⟩

/-- A sighting that is not accepted changes neither the newest nor the plan. -/
theorem Stored.skip {entry : Entry Stamp Row Plan} (stored : Stored sightings entry)
    (refused : (∃ earlier ∈ sightings, earlier.named.isSome = true ∧ sighting.at_ < earlier.at_) ∨
      sighting.named = none)
    (older : sighting.named.isSome = true → sighting.at_ < entry.seen)
    {removed : Option Stamp}
    (mark : removed = (entry.removed).or
      (if entry.seen < sighting.at_ then some sighting.at_ else none)) :
    Stored (sightings ++ [sighting]) { entry with removed := removed } := by
  have accepted (other : Sighting Stamp Row Plan) : Accepted (sightings ++ [sighting]) other ↔
      Accepted sightings other := by
    rw [accepted_append]
    refine or_iff_left ?_
    rintro ⟨rfl, named, newest⟩
    rcases refused with ⟨earlier, member, held, later⟩ | unnamed
    · exact (newest earlier member held).not_gt later
    · rw [unnamed] at named
      cases named
  obtain ⟨before, newest, after, split, seen, row, unmarked⟩ := stored.newest
  refine ⟨⟨before, newest, after ++ [sighting], ⟨?_, split.named, split.earlier, ?_⟩, seen, row, ?_⟩,
    ?_, ?_⟩
  · rw [split.split]
    simp
  · intro other member named
    rcases List.mem_append.mp member with earlier | last
    · exact split.later other earlier named
    · rw [List.mem_singleton.mp last] at named ⊢
      exact seen ▸ older named
  · change removed = _
    rw [mark, unmarked, List.find?_append, ← seen]
    cases after.find? fun sighting => decide (newest.at_ < sighting.at_) with
    | some first => rfl
    | none => by_cases later : newest.at_ < sighting.at_ <;> simp [later]
  · intro plan planned
    obtain ⟨source, taken, named, latest⟩ := stored.planned plan planned
    exact ⟨source, (accepted source).mpr taken, named, fun other held => latest other ((accepted other).mp held)⟩
  · exact fun unplanned other held => stored.unplanned unplanned other ((accepted other).mp held)

/-- One more sighting of a known item. -/
theorem stored_follow {entry : Entry Stamp Row Plan} (stored : Stored sightings entry) :
    Stored (sightings ++ [sighting]) (entry.follow sighting) := by
  obtain ⟨before, newest, after, split, seen, row, unmarked⟩ := stored.newest
  unfold Entry.follow
  split
  next named plan reported =>
    have isNamed : sighting.named.isSome = true := by rw [reported]; rfl
    split
    next later =>
      have newer : ∀ earlier ∈ sightings, earlier.named.isSome = true → earlier.at_ ≤ sighting.at_ :=
        fun earlier member named => (split.le earlier member named).trans (seen ▸ later)
      have own : sighting.plan = plan := by
        unfold Sighting.plan
        rw [reported]
        rfl
      refine ⟨⟨sightings, sighting, [], ⟨rfl, isNamed, newer, nofun⟩, rfl, ?_, rfl⟩, ?_, ?_⟩
      · rw [reported]
        rfl
      · intro kept planned
        cases plan with
        | some fresh =>
          obtain rfl : fresh = kept := Option.some.inj planned
          refine ⟨sighting, accepted_append.mpr (.inr ⟨rfl, isNamed, newer⟩), own, ?_⟩
          intro other held _
          rcases accepted_append.mp held with earlier | ⟨rfl, _⟩
          · exact newer other earlier.named.1 earlier.named.2
          · exact le_rfl
        | none =>
          obtain ⟨source, taken, named, latest⟩ := stored.planned kept planned
          refine ⟨source, accepted_append.mpr (.inl taken), named, ?_⟩
          intro other held carries
          rcases accepted_append.mp held with earlier | ⟨rfl, _⟩
          · exact latest other earlier carries
          · rw [own] at carries
            cases carries
      · intro unplanned other held
        obtain ⟨noPlan, noEntry⟩ := Option.or_eq_none_iff.mp unplanned
        rcases accepted_append.mp held with earlier | ⟨rfl, _⟩
        · exact stored.unplanned noEntry other earlier
        · rw [own, noPlan]
    next older =>
      have before : sighting.at_ < entry.seen := not_le.mp older
      have known : newest ∈ sightings := split.split ▸ by simp
      have refused : ∃ earlier ∈ sightings, earlier.named.isSome = true ∧
          sighting.at_ < earlier.at_ := ⟨newest, known, split.named, seen ▸ before⟩
      exact stored.skip (.inl refused) (fun _ => before) (by simp [not_lt.mpr before.le])
  next unnamed =>
    have absent : sighting.named.isSome = true → sighting.at_ < entry.seen := by
      intro named
      rw [unnamed] at named
      cases named
    split
    next marks =>
      rw [Bool.and_eq_true, decide_eq_true_eq, Option.isNone_iff_eq_none] at marks
      exact stored.skip (.inr unnamed) absent (by simp [marks.1, marks.2])
    next keeps =>
      refine stored.skip (.inr unnamed) absent ?_
      cases marked : entry.removed with
      | some mark => rfl
      | none =>
        rw [marked] at keeps
        have early : ¬entry.seen < sighting.at_ := fun later => keeps (by simp [later])
        rw [if_neg early]
        rfl

theorem stored_first {row : Row} {plan : Option Plan}
    (unnamed : ∀ earlier ∈ sightings, earlier.named = none) (reported : sighting.named = some (row, plan)) :
    Stored (sightings ++ [sighting]) ⟨sighting.at_, row, plan, none⟩ := by
  have isNamed : sighting.named.isSome = true := by rw [reported]; rfl
  have absent : ∀ earlier ∈ sightings, earlier.named.isSome = true → earlier.at_ ≤ sighting.at_ := by
    intro earlier member named
    rw [unnamed earlier member] at named
    cases named
  have only {other : Sighting Stamp Row Plan} (held : Accepted (sightings ++ [sighting]) other) :
      other = sighting := by
    rcases accepted_append.mp held with earlier | ⟨same, _⟩
    · have named := earlier.named.2
      rw [unnamed other earlier.named.1] at named
      cases named
    · exact same
  have own : sighting.plan = plan := by
    unfold Sighting.plan
    rw [reported]
    rfl
  refine ⟨⟨sightings, sighting, [], ⟨rfl, isNamed, absent, nofun⟩, rfl, ?_, rfl⟩, ?_, ?_⟩
  · rw [reported]
    rfl
  · intro kept planned
    refine ⟨sighting, accepted_append.mpr (.inr ⟨rfl, isNamed, absent⟩), own.trans planned, ?_⟩
    intro other held _
    rw [only held]
  · intro unplanned other held
    rw [only held, own]
    exact unplanned

/-- What is stored after every run of sightings: nothing of an item that none has named. -/
theorem stored_followAll (sightings : List (Sighting Stamp Row Plan)) :
    (followAll sightings = none ∧ ∀ sighting ∈ sightings, sighting.named = none) ∨
      ∃ entry, followAll sightings = some entry ∧ Stored sightings entry := by
  induction sightings using List.reverseRecOn with
  | nil => exact .inl ⟨rfl, nofun⟩
  | append_singleton sightings sighting ih =>
    have last : followAll (sightings ++ [sighting]) = follow (followAll sightings) sighting := by
      unfold followAll
      rw [List.foldl_append]
      rfl
    rw [last]
    rcases ih with ⟨empty, unnamed⟩ | ⟨entry, known, stored⟩
    · rw [empty]
      cases reported : sighting.named with
      | none =>
        refine .inl ⟨by simp [follow, reported], fun other member => ?_⟩
        rcases List.mem_append.mp member with earlier | here
        · exact unnamed other earlier
        · rw [List.mem_singleton.mp here]
          exact reported
      | some named =>
        exact .inr ⟨_, by simp [follow, reported], stored_first unnamed reported⟩
    · rw [known]
      exact .inr ⟨entry.follow sighting, rfl, stored_follow stored⟩

theorem Entry.follow_again (entry : Entry Stamp Row Plan) (at_ : Stamp) (first second : Row × Option Plan) :
    (entry.follow ⟨at_, some first⟩).follow ⟨at_, some second⟩ =
      entry.follow ⟨at_, some (second.1, second.2.or first.2)⟩ := by
  by_cases accepted : entry.seen ≤ at_
  · simp [Entry.follow, accepted, Option.or_assoc]
  · simp [Entry.follow, accepted]

/-- The names one listing gives an item, one after the other. -/
theorem follow_names (entry : Option (Entry Stamp Row Plan)) (at_ : Stamp)
    (names : List (Row × Option Plan)) :
    names.foldl (fun entry named => follow entry ⟨at_, some named⟩) entry =
      (lastNamed names).elim entry fun named => follow entry ⟨at_, some named⟩ := by
  induction names using List.reverseRecOn with
  | nil => rfl
  | append_singleton names named ih =>
    have last : lastNamed (names ++ [named]) =
        some (named.1, named.2.or ((lastNamed names).bind Prod.snd)) := by
      unfold lastNamed
      rw [List.foldl_append]
      rfl
    rw [List.foldl_append, ih, last]
    cases lastNamed names with
    | none => simp
    | some first =>
      cases entry with
      | none => simp [follow, Entry.follow]
      | some known => exact congrArg some (known.follow_again at_ first named)

theorem lastNamed_fst (names : List (Row × Option Plan)) :
    (lastNamed names).map Prod.fst = names.getLast?.map Prod.fst := by
  induction names using List.reverseRecOn with
  | nil => rfl
  | append_singleton names named _ =>
    unfold lastNamed
    rw [List.foldl_append, List.getLast?_concat]
    rfl

/-- A listing that names an item leaves nothing of it to mark. -/
theorem follow_unnamed_again (entry : Option (Entry Stamp Row Plan)) (at_ : Stamp)
    (named : Row × Option Plan) :
    follow (follow entry ⟨at_, some named⟩) ⟨at_, none⟩ = follow entry ⟨at_, some named⟩ := by
  cases entry with
  | none => simp [follow, Entry.follow]
  | some known =>
    by_cases accepted : known.seen ≤ at_
    · simp [follow, Entry.follow, accepted]
    · simp [follow, Entry.follow, accepted, (not_le.mp accepted).le.not_gt]

/-- Of the sightings newer than every one that names the item, the oldest comes after the newest of
those, and no other newer one comes between the two. -/
def Marked (sightings : List (Sighting Stamp Row Plan)) : Prop :=
  ∀ before newest after, Newest sightings before newest after → ∀ oldest ∈ sightings,
    newest.at_ < oldest.at_ →
    (∀ other ∈ sightings, newest.at_ < other.at_ → oldest.at_ ≤ other.at_) →
      ∃ between rest, after = between ++ oldest :: rest ∧ ∀ other ∈ between, other.at_ ≤ newest.at_

/-- The newest sighting with a plan has the plan of the newest accepted one that has any. -/
def Planned (sightings : List (Sighting Stamp Row Plan)) : Prop :=
  ∀ source ∈ sightings, source.plan.isSome = true →
    (∀ other ∈ sightings, other.plan.isSome = true → other.at_ ≤ source.at_) →
      ∃ kept, Accepted sightings kept ∧ kept.plan = source.plan ∧
        ∀ other, Accepted sightings other → other.plan.isSome = true → other.at_ ≤ kept.at_

omit [LinearOrder Stamp] in
theorem isSome_of_plan (planned : sighting.plan.isSome = true) : sighting.named.isSome = true := by
  unfold Sighting.plan at planned
  cases reported : sighting.named with
  | none =>
    rw [reported] at planned
    cases planned
  | some named => rfl

section Distinct

variable {sorted : List (Sighting Stamp Row Plan)} {entry other : Entry Stamp Row Plan}

omit [LinearOrder Stamp] in
theorem eq_of_stamp (distinct : (sightings.map Sighting.at_).Nodup)
    {first second : Sighting Stamp Row Plan} (left : first ∈ sightings) (right : second ∈ sightings)
    (same : first.at_ = second.at_) : first = second :=
  List.inj_on_of_nodup_map distinct left right same

theorem Newest.mem {before after : List (Sighting Stamp Row Plan)} {newest : Sighting Stamp Row Plan}
    (split : Newest sightings before newest after) : newest ∈ sightings := by
  rw [split.split]
  simp

/-- One sighting is the newest that names the item, in one place. -/
theorem Newest.unique (distinct : (sightings.map Sighting.at_).Nodup)
    {before after first last : List (Sighting Stamp Row Plan)} {newest second : Sighting Stamp Row Plan}
    (split : Newest sightings before newest after) (again : Newest sightings first second last) :
    newest = second ∧ after = last := by
  have same := eq_of_stamp distinct split.mem again.mem
    (le_antisymm (again.le newest split.mem split.named) (split.le second again.mem again.named))
  subst same
  have nodup : sightings.Nodup := List.Nodup.of_map _ distinct
  rw [split.split] at nodup
  have apart := (List.nodup_middle.mp nodup).notMem
  rw [List.mem_append, not_or] at apart
  have equal := split.split.symm.trans again.split
  exact ⟨rfl, ((List.append_cons_inj_of_notMem apart.1 apart.2).mp equal).2.2⟩

/-- The mark is the oldest newer sighting's exactly where the sightings are marked so. -/
theorem Stored.removed_iff (distinct : (sightings.map Sighting.at_).Nodup)
    (stored : Stored sightings entry) (oldest : Option (Sighting Stamp Row Plan))
    (first : ∀ sighting ∈ oldest, sighting ∈ sightings ∧ entry.seen < sighting.at_ ∧
      ∀ other ∈ sightings, entry.seen < other.at_ → sighting.at_ ≤ other.at_)
    (none_newer : oldest = none → ∀ other ∈ sightings, other.at_ ≤ entry.seen) :
    entry.removed = oldest.map Sighting.at_ ↔ Marked sightings := by
  obtain ⟨before, newest, after, split, seen, _, removed⟩ := stored.newest
  have within {sighting : Sighting Stamp Row Plan} (member : sighting ∈ after) : sighting ∈ sightings := by
    rw [split.split]
    simp [member]
  rw [removed]
  cases oldest with
  | none =>
    have newer := none_newer rfl
    have missed : after.find? (fun sighting => decide (newest.at_ < sighting.at_)) = none := by
      rw [List.find?_eq_none]
      intro sighting member later
      exact (newer sighting (within member)).not_gt (seen ▸ of_decide_eq_true later)
    rw [missed]
    refine iff_of_true rfl ?_
    intro before' newest' after' split' oldest member later _
    obtain ⟨rfl, _⟩ := split.unique distinct split'
    exact absurd (seen ▸ later) (newer oldest member).not_gt
  | some oldest =>
    obtain ⟨member, later, least⟩ := first oldest rfl
    constructor
    · intro marked before' newest' after' split' other otherMember otherLater otherLeast
      obtain ⟨rfl, rfl⟩ := split.unique distinct split'
      have same : oldest = other := eq_of_stamp distinct member otherMember
        (le_antisymm (least other otherMember (seen ▸ otherLater)) (otherLeast oldest member (seen.symm ▸ later)))
      subst same
      obtain ⟨found, known, at_⟩ := Option.map_eq_some_iff.mp marked
      have one := eq_of_stamp distinct (within (List.mem_of_find?_eq_some known)) member at_
      subst one
      obtain ⟨_, between, rest, rfl, older⟩ := List.find?_eq_some_iff_append.mp known
      exact ⟨between, rest, rfl, fun other inside => not_lt.mp (by simpa using older other inside)⟩
    · intro marked
      obtain ⟨between, rest, rfl, older⟩ := marked before newest after split oldest member
        (seen.symm ▸ later) fun other inside later => least other inside (seen ▸ later)
      have found : (between ++ oldest :: rest).find? (fun sighting =>
          decide (newest.at_ < sighting.at_)) = some oldest :=
        List.find?_eq_some_iff_append.mpr ⟨decide_eq_true (seen.symm ▸ later), between, rest, rfl,
          fun other inside => by simpa using older other inside⟩
      rw [found]

/-- The plan is the newest sighting's that has one exactly where the sightings are planned so. -/
theorem Stored.plan_iff (stored : Stored sightings entry)
    (source : Option (Sighting Stamp Row Plan))
    (newest : ∀ sighting ∈ source, sighting ∈ sightings ∧ sighting.plan.isSome = true ∧
      ∀ other ∈ sightings, other.plan.isSome = true → other.at_ ≤ sighting.at_)
    (none_planned : source = none → ∀ other ∈ sightings, other.plan = none)
    (distinct : (sightings.map Sighting.at_).Nodup) :
    entry.plan = source.bind Sighting.plan ↔ Planned sightings := by
  cases source with
  | none =>
    have unplanned := none_planned rfl
    constructor
    · intro _ source member planned _
      rw [unplanned source member] at planned
      cases planned
    · intro _
      cases kept : entry.plan with
      | none => rfl
      | some plan =>
        obtain ⟨source, taken, named, _⟩ := stored.planned plan kept
        rw [unplanned source taken.named.1] at named
        cases named
  | some source =>
    obtain ⟨member, planned, latest⟩ := newest source rfl
    change entry.plan = source.plan ↔ _
    constructor
    · intro same other otherMember otherPlanned otherLatest
      obtain rfl : source = other := eq_of_stamp distinct member otherMember
        (le_antisymm (otherLatest source member planned) (latest other otherMember otherPlanned))
      obtain ⟨plan, known⟩ := Option.isSome_iff_exists.mp planned
      obtain ⟨kept, taken, named, last⟩ := stored.planned plan (same.trans known)
      exact ⟨kept, taken, named.trans known.symm, last⟩
    · intro holds
      obtain ⟨kept, taken, same, last⟩ := holds source member planned latest
      obtain ⟨plan, known⟩ := Option.isSome_iff_exists.mp planned
      rcases Option.eq_none_or_eq_some entry.plan with unplanned | ⟨own, ownPlan⟩
      · have lost := stored.unplanned unplanned kept taken
        rw [same, known] at lost
        cases lost
      · obtain ⟨from_, fromTaken, fromPlan, fromLast⟩ := stored.planned own ownPlan
        have one : from_ = kept := eq_of_stamp distinct fromTaken.named.1 taken.named.1
          (le_antisymm (last from_ fromTaken (by rw [fromPlan]; rfl))
            (fromLast kept taken (by rw [same]; exact planned)))
        rw [ownPlan, ← fromPlan, one, same]

theorem eq_none_of_unnamed (unnamed : ∀ sighting ∈ sightings, sighting.named = none) :
    followAll sightings = none := by
  rcases stored_followAll sightings with ⟨empty, _⟩ | ⟨entry, _, stored⟩
  · exact empty
  · obtain ⟨before, newest, after, split, _⟩ := stored.newest
    have named := split.named
    rw [unnamed newest split.mem] at named
    cases named

theorem accepted_of_ordered (ordered : sorted.Pairwise fun first second => first.at_ < second.at_)
    {sighting : Sighting Stamp Row Plan} (member : sighting ∈ sorted)
    (named : sighting.named.isSome = true) : Accepted sorted sighting := by
  obtain ⟨before, after, rfl⟩ := List.append_of_mem member
  refine ⟨before, after, rfl, named, fun earlier inside _ => ?_⟩
  exact ((List.pairwise_append.mp ordered).2.2 earlier inside sighting List.mem_cons_self).le

theorem Newest.later_mem (ordered : sorted.Pairwise fun first second => first.at_ < second.at_)
    {before after : List (Sighting Stamp Row Plan)} {newest sighting : Sighting Stamp Row Plan}
    (split : Newest sorted before newest after) (member : sighting ∈ sorted)
    (later : newest.at_ < sighting.at_) : sighting ∈ after := by
  rw [split.split] at member ordered
  rcases List.mem_append.mp member with earlier | member
  · have sooner := (List.pairwise_append.mp ordered).2.2 sighting earlier newest List.mem_cons_self
    exact absurd later sooner.not_gt
  · rcases List.mem_cons.mp member with rfl | inside
    · exact absurd later (lt_irrefl _)
    · exact inside

theorem marked_of_ordered (ordered : sorted.Pairwise fun first second => first.at_ < second.at_) :
    Marked sorted := by
  intro before newest after split oldest member later least
  obtain ⟨between, rest, rfl⟩ := List.append_of_mem (split.later_mem ordered member later)
  refine ⟨between, rest, rfl, fun other inside => ?_⟩
  have tail : (newest :: (between ++ oldest :: rest)).Pairwise
      fun first second => first.at_ < second.at_ :=
    (List.pairwise_append.mp (split.split ▸ ordered)).2.1
  have sooner : other.at_ < oldest.at_ :=
    (List.pairwise_append.mp (List.pairwise_cons.mp tail).2).2.2 other inside oldest List.mem_cons_self
  have known : other ∈ sorted := by
    rw [split.split]
    simp [inside]
  by_contra newer
  exact (least other known (not_le.mp newer)).not_gt sooner

theorem planned_of_ordered (ordered : sorted.Pairwise fun first second => first.at_ < second.at_) :
    Planned sorted := fun source member planned latest =>
  ⟨source, accepted_of_ordered ordered member (isSome_of_plan planned), rfl,
    fun other held carries => latest other held.named.1 carries⟩

/-- In the order of their stamps, the item is marked where a sighting newer than the newest name
left it out. -/
theorem Stored.removed_of_ordered (ordered : sorted.Pairwise fun first second => first.at_ < second.at_)
    (stored : Stored sorted entry) :
    entry.removed.isSome = true ↔ ∃ sighting ∈ sorted, entry.seen < sighting.at_ := by
  obtain ⟨before, newest, after, split, seen, _, removed⟩ := stored.newest
  rw [removed, Option.isSome_map, List.find?_isSome, ← seen]
  constructor
  · rintro ⟨sighting, member, later⟩
    refine ⟨sighting, ?_, of_decide_eq_true later⟩
    rw [split.split]
    simp [member]
  · rintro ⟨sighting, member, later⟩
    exact ⟨sighting, split.later_mem ordered member later, decide_eq_true later⟩

/-- The row is the newest name's. -/
theorem Stored.of_newest (distinct : (sightings.map Sighting.at_).Nodup)
    (stored : Stored sightings entry) {newest : Sighting Stamp Row Plan} (member : newest ∈ sightings)
    (named : newest.named.isSome = true)
    (latest : ∀ sighting ∈ sightings, sighting.named.isSome = true → sighting.at_ ≤ newest.at_) :
    entry.seen = newest.at_ ∧ newest.named.map Prod.fst = some entry.row := by
  obtain ⟨before, known, after, split, seen, row, _⟩ := stored.newest
  have same : known = newest := eq_of_stamp distinct split.mem member
    (le_antisymm (latest known split.mem split.named) (split.le newest member named))
  subst same
  exact ⟨seen.symm, row⟩

/-- In the order of their stamps, the item is marked where the last sighting left it out. -/
theorem Stored.removed_iff_last (ordered : sorted.Pairwise fun first second => first.at_ < second.at_)
    (stored : Stored sorted entry) {last : Sighting Stamp Row Plan} (member : last ∈ sorted)
    (latest : ∀ sighting ∈ sorted, sighting.at_ ≤ last.at_) :
    entry.removed.isSome = true ↔ last.named = none := by
  have distinct : (sorted.map Sighting.at_).Nodup :=
    List.pairwise_map.mpr (ordered.imp fun earlier => earlier.ne)
  obtain ⟨_, newest, _, split, seen, _⟩ := stored.newest
  rw [stored.removed_of_ordered ordered]
  constructor
  · rintro ⟨sighting, inside, later⟩
    rw [← Option.not_isSome_iff_eq_none]
    intro named
    exact (split.le last member named).not_gt (seen ▸ later.trans_le (latest sighting inside))
  · intro unnamed
    refine ⟨last, member, lt_of_le_of_ne (seen ▸ latest newest split.mem) fun same => ?_⟩
    have one := eq_of_stamp distinct split.mem member (seen.trans same)
    have named := split.named
    rw [one, unnamed] at named
    cases named

/-- The sightings leave what they leave in the order of their stamps exactly where they are marked
and planned so. -/
theorem followAll_eq_iff (perm : sorted.Perm sightings)
    (ordered : sorted.Pairwise fun first second => first.at_ < second.at_) :
    followAll sightings = followAll sorted ↔ Marked sightings ∧ Planned sightings := by
  have sortedDistinct : (sorted.map Sighting.at_).Nodup :=
    List.pairwise_map.mpr (ordered.imp fun earlier => earlier.ne)
  have distinct : (sightings.map Sighting.at_).Nodup := (perm.map Sighting.at_).nodup_iff.mp sortedDistinct
  rcases stored_followAll sightings with ⟨empty, unnamed⟩ | ⟨entry, known, stored⟩
  · rw [empty, eq_none_of_unnamed fun sighting member => unnamed sighting (perm.mem_iff.mp member)]
    refine iff_of_true rfl ⟨fun before newest after split => ?_, fun source member planned => ?_⟩
    · have named := split.named
      rw [unnamed newest split.mem] at named
      cases named
    · have named := isSome_of_plan planned
      rw [unnamed source member] at named
      cases named
  rcases stored_followAll sorted with ⟨_, unnamed⟩ | ⟨sortedEntry, sortedKnown, sortedStored⟩
  · obtain ⟨_, newest, _, split, _⟩ := stored.newest
    have named := split.named
    rw [unnamed newest (perm.mem_iff.mpr split.mem)] at named
    cases named
  obtain ⟨_, newest, _, split, seen, row, _⟩ := stored.newest
  obtain ⟨_, sortedNewest, _, sortedSplit, sortedSeen, sortedRow, _⟩ := sortedStored.newest
  have one : newest = sortedNewest :=
    eq_of_stamp distinct split.mem (perm.mem_iff.mp sortedSplit.mem) (le_antisymm
      (sortedSplit.le newest (perm.mem_iff.mpr split.mem) split.named)
      (split.le sortedNewest (perm.mem_iff.mp sortedSplit.mem) sortedSplit.named))
  subst one
  have sameSeen : sortedEntry.seen = entry.seen := sortedSeen.symm.trans seen
  have sameRow : sortedEntry.row = entry.row := Option.some.inj (sortedRow.symm.trans row)
  have member (sighting : Sighting Stamp Row Plan) : sighting ∈ sorted ↔ sighting ∈ sightings := perm.mem_iff
  let oldest := (sightings.filter fun sighting => entry.seen < sighting.at_).argmin Sighting.at_
  have least : ∀ sighting ∈ oldest, sighting ∈ sightings ∧ entry.seen < sighting.at_ ∧
      ∀ other ∈ sightings, entry.seen < other.at_ → sighting.at_ ≤ other.at_ := by
    intro sighting held
    obtain ⟨inside, later⟩ := List.mem_filter.mp (List.argmin_mem held)
    refine ⟨inside, of_decide_eq_true later, fun other known newer => ?_⟩
    exact List.le_of_mem_argmin (List.mem_filter.mpr ⟨known, decide_eq_true newer⟩) held
  have newest_last : oldest = none → ∀ other ∈ sightings, other.at_ ≤ entry.seen := by
    intro none_newer other known
    have refused := List.filter_eq_nil_iff.mp (List.argmin_eq_none.mp none_newer) other known
    exact not_lt.mp fun later => refused (decide_eq_true later)
  let source := (sightings.filter fun sighting => sighting.plan.isSome).argmax Sighting.at_
  have latest : ∀ sighting ∈ source, sighting ∈ sightings ∧ sighting.plan.isSome = true ∧
      ∀ other ∈ sightings, other.plan.isSome = true → other.at_ ≤ sighting.at_ := by
    intro sighting held
    obtain ⟨inside, planned⟩ := List.mem_filter.mp (List.argmax_mem held)
    refine ⟨inside, planned, fun other known carries => ?_⟩
    exact List.le_of_mem_argmax (List.mem_filter.mpr ⟨known, carries⟩) held
  have unplanned : source = none → ∀ other ∈ sightings, other.plan = none := by
    intro none_planned other known
    have refused := List.filter_eq_nil_iff.mp (List.argmax_eq_none.mp none_planned) other known
    simpa using refused
  have removed : sortedEntry.removed = oldest.map Sighting.at_ :=
    (sortedStored.removed_iff sortedDistinct oldest (by simpa only [member, sameSeen] using least)
      (by simpa only [member, sameSeen] using newest_last)).mpr (marked_of_ordered ordered)
  have planned : sortedEntry.plan = source.bind Sighting.plan :=
    (sortedStored.plan_iff source (by simpa only [member] using latest)
      (by simpa only [member] using unplanned) sortedDistinct).mpr (planned_of_ordered ordered)
  have equal : entry = sortedEntry ↔
      entry.removed = sortedEntry.removed ∧ entry.plan = sortedEntry.plan := by
    constructor
    · rintro rfl
      exact ⟨rfl, rfl⟩
    · rintro ⟨sameRemoved, samePlan⟩
      obtain ⟨seenAt, entryRow, entryPlan, mark⟩ := entry
      obtain ⟨sortedAt, sortedRowOf, sortedPlan, sortedMark⟩ := sortedEntry
      cases sameSeen
      cases sameRow
      cases sameRemoved
      cases samePlan
      rfl
  rw [known, sortedKnown, Option.some.injEq, equal, removed, planned,
    stored.removed_iff distinct oldest least newest_last,
    stored.plan_iff source latest unplanned distinct]

end Distinct

end MeteredUsage.Library.Sightings

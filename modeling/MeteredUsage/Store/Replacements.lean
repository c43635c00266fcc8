import MeteredUsage.Store.Apart

/-! Replacements are one to one: a removed credential has one and a credential is the one of one, in
every state of the tables. -/

namespace MeteredUsage.Store.Replacements
open MeteredUsage.Values MeteredUsage.Store.Schema MeteredUsage.Store.Continuations
open MeteredUsage.Store.Apart MeteredUsage.Library.Keyed

variable {tables : Tables} {old new other : Account}

/-- What a previous account has and its replacement lacks. -/
theorem plans_of_continues (pair : continues tables old new = true) :
    hasPlan tables old.id = true ∧ hasPlan tables new.id = false := by
  simp only [continues, couldContinue, Bool.and_eq_true, Bool.not_eq_true'] at pair
  exact ⟨pair.1.1.1.2, pair.1.1.2⟩

/-- Both accounts of a pair are unmerged sign-ins. -/
theorem signIns_of_continues (pair : continues tables old new = true) :
    (old.mergedInto = none ∧ new.mergedInto = none) ∧ old.authKind = .oauth ∧ new.authKind = .oauth := by
  have matched := rowsMatch_of_continues pair
  simp only [rowsMatch, Bool.and_eq_true, decide_eq_true_eq, Option.isNone_iff_eq_none] at matched
  exact ⟨⟨matched.1.1.1.1.2, matched.1.1.1.2⟩, matched.1.1.2, matched.1.2⟩

/-- The labels of a sole pair are written alike. -/
theorem label_of_isSole (sole : isSole tables old new = true) :
    ∃ label, old.label = some label ∧ new.label = some label := by
  simp only [isSole, Bool.and_eq_true] at sole
  have alike := sole.1
  cases first : old.label with
  | none => simp [first, equals] at alike
  | some label =>
    cases second : new.label with
    | none => simp [first, second, equals] at alike
    | some again =>
      rw [first, second] at alike
      have same : label = again := by simpa [equals] using alike
      exact ⟨label, rfl, congrArg some same.symm⟩

/-- A sole pair has the only account its replacement could be the replacement of. -/
theorem sole_previous (sole : isSole tables old new = true) (pair : continues tables old new = true)
    (stored : other ∈ tables.accounts) (later : continues tables other new = true) : other.id = old.id := by
  by_contra apart
  simp only [isSole, Bool.and_eq_true, Bool.not_eq_true', List.any_eq_false] at sole
  apply sole.2 other stored
  obtain ⟨source, provider, kind, _, _, label⟩ := alike_of_continues pair
  obtain ⟨itsSource, itsProvider, itsKind, _, differs, itsLabel⟩ := alike_of_continues later
  have unmerged := (signIns_of_continues later).1.1
  have named : equals (folded other.label) (folded old.label) = true := by
    rw [equals_symm] at itsLabel
    exact equals_trans itsLabel label
  have sources : other.sourceId = old.sourceId := itsSource.symm.trans source
  have providers : other.provider = old.provider := itsProvider.symm.trans provider
  have kinds : other.authKind = old.authKind := itsKind.symm.trans kind
  have newApart : other.id ≠ new.id := fun same => differs same.symm
  simp [sources, providers, kinds, unmerged, newApart, apart, named]

/-- The rows of the statement are told apart by their two accounts. -/
theorem nodup_replacements (ids : Distinct Account.id tables.accounts) : (replacements tables).Nodup := by
  have accounts : (byId tables.accounts).Nodup := by
    have stored : tables.accounts.Nodup := ids.imp fun apart same => apart (congrArg Account.id same)
    exact (List.perm_insertionSort _ _).nodup_iff.mpr stored
  have atId {first second : Account} (left : first ∈ byId tables.accounts)
      (right : second ∈ byId tables.accounts) (same : first.id = second.id) : first = second :=
    ids.eq_of_key ((List.mem_insertionSort _).mp left) ((List.mem_insertionSort _).mp right) same
  have rows : (list tables none).Nodup := by
    unfold list
    simp only [Option.all_none, List.filter_true]
    rw [List.nodup_flatMap]
    constructor
    · intro old stored
      unfold continuationsOf
      apply List.Nodup.map_on _ (accounts.filter _)
      intro first left second right same
      exact atId (List.mem_of_mem_filter left) (List.mem_of_mem_filter right)
        (congrArg Continuation.replacement same)
    · apply accounts.imp_of_mem
      intro first second left right differs
      apply List.disjoint_left.mpr
      intro row ofFirst ofSecond
      obtain ⟨_, _, rfl⟩ := List.mem_map.mp ofFirst
      obtain ⟨_, _, same⟩ := List.mem_map.mp ofSecond
      exact differs (atId left right (congrArg Continuation.previous same).symm)
  unfold replacements
  apply List.Nodup.map_on _ (rows.filter _)
  intro first left second right same
  have firstSole := List.of_mem_filter left
  have secondSole := List.of_mem_filter right
  obtain ⟨previous, replacement, _⟩ := first
  obtain ⟨_, _, _⟩ := second
  obtain ⟨rfl, rfl⟩ := Prod.mk.inj same
  exact congrArg _ (firstSole.trans secondSole.symm)

/-- No previous account has two replacements, so the map the rows are collected into drops none; no
account replaces two; none is both; and the two are unmerged OAuth accounts of one source and
provider under one label. -/
theorem replacements_one_to_one (tables : Tables) (ids : Distinct Account.id tables.accounts) :
    ((replacements tables).map Prod.fst).Nodup ∧ ((replacements tables).map Prod.snd).Nodup ∧
      (∀ link ∈ replacements tables, linked (replacements tables) link.1 = some link.2) ∧
      (∀ first ∈ replacements tables, ∀ second ∈ replacements tables, first.1 ≠ second.2) ∧
      ∀ link ∈ replacements tables, ∃ old ∈ tables.accounts, ∃ new ∈ tables.accounts,
        old.id = link.1 ∧ new.id = link.2 ∧ old.mergedInto = none ∧ new.mergedInto = none ∧
          old.authKind = .oauth ∧ new.authKind = .oauth ∧ new.sourceId = old.sourceId ∧
          new.provider = old.provider ∧ ∃ label, old.label = some label ∧ new.label = some label := by
  have nodup := nodup_replacements ids
  refine ⟨?_, ?_, ?_, ?_, ?_⟩
  · apply List.Nodup.map_on _ nodup
    rintro ⟨id, first⟩ left ⟨_, second⟩ right rfl
    have one := (linked_eq_some ids).mpr left
    have again := (linked_eq_some ids).mpr right
    rw [Option.some.inj (one.symm.trans again)]
  · apply List.Nodup.map_on _ nodup
    rintro ⟨first, id⟩ left ⟨second, _⟩ right rfl
    obtain ⟨old, _, new, newStored, rfl, rfl, pair, sole⟩ := mem_replacements.mp left
    obtain ⟨other, otherStored, again, againStored, rfl, same, later, _⟩ := mem_replacements.mp right
    obtain rfl := ids.eq_of_key againStored newStored same
    rw [sole_previous sole pair otherStored later]
  · intro link member
    exact (linked_eq_some ids).mpr member
  · intro first left second right same
    obtain ⟨old, _, _, _, oldId, _, pair, _⟩ := mem_replacements.mp left
    obtain ⟨_, _, new, _, _, newId, later, _⟩ := mem_replacements.mp right
    have has := (plans_of_continues pair).1
    have lacks := (plans_of_continues later).2
    rw [oldId, same] at has
    rw [newId, has] at lacks
    cases lacks
  · intro link member
    obtain ⟨old, oldStored, new, newStored, oldId, newId, pair, sole⟩ := mem_replacements.mp member
    have ⟨⟨oldUnmerged, newUnmerged⟩, oldKind, newKind⟩ := signIns_of_continues pair
    have ⟨source, provider, _⟩ := alike_of_continues pair
    exact ⟨old, oldStored, new, newStored, oldId, newId, oldUnmerged, newUnmerged, oldKind, newKind,
      source, provider, label_of_isSole sole⟩

/-- Two sign-ins of one person. The first is removed, and tracked by a plan. -/
def signedInAgain : Tables := { Tables.empty with
  accounts := [⟨1, 1, "codex", "first", .oauth, some "a@b", none, none, 1, 1⟩,
    ⟨2, 1, "codex", "second", .oauth, some "a@b", none, none, 2, 2⟩]
  states := [⟨1, none, none, false, false, none, [], none, some "plus", true, some 1, none, none, some 2, none⟩,
    ⟨2, none, none, false, false, none, [], none, some "Plus ", true, some 3, none, none, none, none⟩]
  plans := [⟨1, 1, "plus", .zero, 0, none⟩] }

theorem one_replacement : replacements signedInAgain = [(1, 2)] ∧
    linked (replacements signedInAgain) 1 = some 2 := by
  have rows : replacements signedInAgain = [(1, 2)] := by decide
  have ids : Distinct Account.id signedInAgain.accounts := by simp [Distinct, signedInAgain]
  obtain ⟨_, _, kept, _, _⟩ := replacements_one_to_one signedInAgain ids
  have stored : ((1, 2) : AccountId × AccountId) ∈ replacements signedInAgain := by
    rw [rows]
    decide
  exact ⟨rows, kept (1, 2) stored⟩

end MeteredUsage.Store.Replacements

import Mathlib.Algebra.Order.Ring.Int
import Mathlib.Data.List.Basic
import Mathlib.Data.Nat.Basic
import Mathlib.Logic.Function.Basic
import MeteredUsage.Library.Execution

/-! The id generator: any number of threads race on one atomic word, which holds the milliseconds
and the sequence number of the last id. A load may answer any value the word has had, and an
exchange may fail for no reason. -/

namespace MeteredUsage.Ids
open MeteredUsage.Library.Execution

/-- 2025-01-01T00:00:00Z -/
def epochMs : Nat := 1735689600000

def nodeMask : UInt64 := 1023
def sequenceMask : UInt64 := 4095

/-- `milliseconds_since_epoch`, from the time since the Unix epoch if it is not before it. -/
def millisecondsSinceEpoch (elapsed : Option Nat) : UInt64 :=
  UInt64.ofNat ((elapsed.filter (· < 2 ^ 64)).getD epochMs - epochMs)

inductive Phase where
  | idle
  | timed (now : UInt64)
  | loaded (now previous : UInt64)
deriving DecidableEq, Repr

structure IdGenerator where
  node : UInt64
  /-- Every value of the atomic word but the present one. -/
  past : List UInt64
  state : UInt64
  threads : Nat → Phase
  /-- The ids returned, in the order of the exchanges that minted them. -/
  ids : List Int

def IdGenerator.new (node : UInt16) : IdGenerator :=
  ⟨node.toUInt64 &&& nodeMask, [], 0, fun _ => .idle, []⟩

/-- The word of the next id, unless the sequence of the millisecond is used up. -/
def following (now previous : UInt64) : Option UInt64 :=
  let previousMilliseconds := previous >>> 12
  let previousSequence := previous &&& sequenceMask
  -- A clock that moves backwards keeps the previous millisecond.
  let (milliseconds, sequence) :=
    if now > previousMilliseconds then (now, 0) else (previousMilliseconds, previousSequence + 1)
  if sequence > sequenceMask then none else some ((milliseconds <<< 12) ||| sequence)

/-- The id of a word, as a signed number. -/
def idOf (node next : UInt64) : Int :=
  (((next >>> 12) <<< 22) ||| (node <<< 12) ||| (next &&& sequenceMask)).toInt64.toInt

inductive Action where
  | readClock (thread : Nat) (elapsed : Option Nat)
  /-- Loads the present value, or the one so many values ago. -/
  | load (thread staleness : Nat)
  | exchange (thread : Nat) (fails : Bool)
deriving DecidableEq, Repr

def IdGenerator.become (generator : IdGenerator) (thread : Nat) (phase : Phase) : IdGenerator :=
  { generator with threads := Function.update generator.threads thread phase }

def step (generator : IdGenerator) : Action → Option IdGenerator
  | .readClock thread elapsed =>
    if generator.threads thread = .idle then
      some (generator.become thread (.timed (millisecondsSinceEpoch elapsed)))
    else none
  | .load thread staleness =>
    match generator.threads thread with
    | .timed now => ((generator.past ++ [generator.state]).reverse[staleness]?).map fun previous =>
      generator.become thread (.loaded now previous)
    | _ => none
  | .exchange thread fails =>
    match generator.threads thread with
    | .loaded now previous =>
      let again := generator.become thread .idle
      match following now previous with
      | none => some again
      | some next =>
        if fails ∨ generator.state ≠ previous then some again else some { again with
          past := generator.past ++ [generator.state]
          state := next
          ids := generator.ids ++ [idOf generator.node next] }
    | _ => none

/-- The clock has not run 2^41 milliseconds since the id epoch. -/
def Early (_ : IdGenerator) : Action → Prop
  | .readClock _ elapsed => (millisecondsSinceEpoch elapsed).toNat < 2 ^ 41
  | _ => True

/-- The property: the ids are distinct, not negative, and in the order they were minted in. -/
structure Sorted (generator : IdGenerator) : Prop where
  increasing : generator.ids.Pairwise (· < ·)
  distinct : generator.ids.Nodup
  nonnegative : ∀ id ∈ generator.ids, 0 ≤ id

theorem toNat_packed {milliseconds sequence : UInt64} (early : milliseconds.toNat < 2 ^ 41)
    (within : sequence.toNat < 2 ^ 12) :
    ((milliseconds <<< 12) ||| sequence).toNat = milliseconds.toNat * 2 ^ 12 + sequence.toNat := by
  have shifted : (milliseconds <<< 12).toNat = milliseconds.toNat <<< 12 := by
    rw [UInt64.toNat_shiftLeft]
    change milliseconds.toNat <<< 12 % 2 ^ 64 = _
    rw [Nat.shiftLeft_eq]
    omega
  rw [UInt64.toNat_or, shifted, ← Nat.shiftLeft_add_eq_or_of_lt within, Nat.shiftLeft_eq]

theorem toNat_milliseconds (state : UInt64) : (state >>> 12).toNat = state.toNat / 2 ^ 12 := by
  rw [UInt64.toNat_shiftRight]
  exact Nat.shiftRight_eq_div_pow _ _

theorem toNat_sequence (state : UInt64) : (state &&& sequenceMask).toNat = state.toNat % 2 ^ 12 := by
  rw [UInt64.toNat_and]
  exact Nat.and_two_pow_sub_one_eq_mod _ 12

/-- The next word is above the one it follows, and of a millisecond the clock has reached. -/
theorem following_above {now previous next : UInt64} (early : now.toNat < 2 ^ 41)
    (bounded : previous.toNat < 2 ^ 53) (follows : following now previous = some next) :
    previous.toNat < next.toNat ∧ next.toNat < 2 ^ 53 := by
  have milliseconds := toNat_milliseconds previous
  have sequence := toNat_sequence previous
  simp only [following] at follows
  by_cases later : now > previous >>> 12
  · have after : (previous >>> 12).toNat < now.toNat := later
    rw [if_pos later] at follows
    have zero : (0 : UInt64).toNat = 0 := rfl
    have packed := toNat_packed early (by decide : (0 : UInt64).toNat < 2 ^ 12)
    cases follows
    dsimp only
    omega
  · rw [if_neg later] at follows
    simp only [Option.ite_none_left_eq_some] at follows
    obtain ⟨room, same⟩ := follows
    have succeeding : ((previous &&& sequenceMask) + 1).toNat = previous.toNat % 2 ^ 12 + 1 := by
      rw [UInt64.toNat_add, sequence]
      have one : (1 : UInt64).toNat = 1 := rfl
      omega
    have within : ((previous &&& sequenceMask) + 1).toNat ≤ 4095 := by
      exact UInt64.le_iff_toNat_le.mp (UInt64.not_lt.mp room)
    have kept : (previous >>> 12).toNat < 2 ^ 41 := by omega
    have packed := toNat_packed kept (Nat.lt_succ_of_le within)
    cases same
    omega

/-- An id orders by its word: the node lies between the milliseconds and the sequence number. -/
theorem idOf_eq {node next : UInt64} (ten : node.toNat < 2 ^ 10) (bounded : next.toNat < 2 ^ 53) :
    idOf node next =
      ((next.toNat / 2 ^ 12 * 2 ^ 22 + node.toNat * 2 ^ 12 + next.toNat % 2 ^ 12 : Nat) : Int) := by
  have milliseconds := toNat_milliseconds next
  have sequence := toNat_sequence next
  have high : ((next >>> 12) <<< 22).toNat = (next.toNat / 2 ^ 12) <<< 22 := by
    rw [UInt64.toNat_shiftLeft, milliseconds]
    change (next.toNat / 2 ^ 12) <<< 22 % 2 ^ 64 = _
    rw [Nat.shiftLeft_eq]
    omega
  have middle : (node <<< 12).toNat = node.toNat <<< 12 := by
    rw [UInt64.toNat_shiftLeft]
    change node.toNat <<< 12 % 2 ^ 64 = _
    rw [Nat.shiftLeft_eq]
    omega
  have low : next.toNat % 2 ^ 12 < 2 ^ 12 := Nat.mod_lt _ (by decide)
  have field : node.toNat <<< 12 + next.toNat % 2 ^ 12 < 2 ^ 22 := by
    rw [Nat.shiftLeft_eq]
    omega
  have raw : (((next >>> 12) <<< 22) ||| (node <<< 12) ||| (next &&& sequenceMask)).toNat =
      next.toNat / 2 ^ 12 * 2 ^ 22 + node.toNat * 2 ^ 12 + next.toNat % 2 ^ 12 := by
    rw [UInt64.toNat_or, UInt64.toNat_or, high, middle, sequence, Nat.or_assoc,
      ← Nat.shiftLeft_add_eq_or_of_lt low, ← Nat.shiftLeft_add_eq_or_of_lt field,
      Nat.shiftLeft_eq, Nat.shiftLeft_eq, Nat.add_assoc]
  rw [idOf, ← raw]
  have positive : (((next >>> 12) <<< 22) ||| (node <<< 12) ||| (next &&& sequenceMask)).toNat <
      2 ^ 63 := by
    rw [raw]
    omega
  rw [← Int64.toInt_ofNat_of_lt positive, ← UInt64.toInt64_ofNat', UInt64.ofNat_toNat]

structure Invariant (generator : IdGenerator) : Prop where
  node : generator.node.toNat < 2 ^ 10
  early : ∀ thread, match generator.threads thread with
    | .idle => True
    | .timed now | .loaded now _ => now.toNat < 2 ^ 41
  bounded : generator.state.toNat < 2 ^ 53
  words : (generator.past ++ [generator.state]).Pairwise fun first second => first.toNat < second.toNat
  minted : generator.ids = ((generator.past ++ [generator.state]).drop 1).map (idOf generator.node)

theorem invariant_new (node : UInt16) : Invariant (IdGenerator.new node) where
  node := by
    have masked : (node.toUInt64 &&& nodeMask).toNat = node.toUInt64.toNat % 2 ^ 10 := by
      rw [UInt64.toNat_and]
      exact Nat.and_two_pow_sub_one_eq_mod _ 10
    rw [IdGenerator.new, masked]
    omega
  early := fun _ => trivial
  bounded := (by decide : (0 : UInt64).toNat < 2 ^ 53)
  words := List.pairwise_singleton _ _
  minted := rfl

/-- A thread's own step, which leaves the word alone. -/
theorem Invariant.become {generator : IdGenerator} (held : Invariant generator) (thread : Nat)
    (phase : Phase) (early : match phase with
      | .idle => True
      | .timed now | .loaded now _ => now.toNat < 2 ^ 41) :
    Invariant (generator.become thread phase) where
  node := held.node
  early := by
    intro other
    by_cases same : other = thread
    · subst same
      simpa [IdGenerator.become] using early
    · simpa [IdGenerator.become, same] using held.early other
  bounded := held.bounded
  words := held.words
  minted := held.minted

theorem invariant_step {generator next : IdGenerator} {action : Action} (held : Invariant generator)
    (early : Early generator action) (taken : step generator action = some next) :
    Invariant next := by
  cases action with
  | readClock thread elapsed =>
    simp only [step, Option.ite_none_right_eq_some] at taken
    cases taken.2
    exact held.become thread _ early
  | load thread staleness =>
    simp only [step] at taken
    split at taken
    · rename_i now timed
      obtain ⟨previous, -, same⟩ := Option.map_eq_some_iff.mp taken
      subst same
      have bound := held.early thread
      rw [timed] at bound
      exact held.become thread _ bound
    · cases taken
  | exchange thread fails =>
    simp only [step] at taken
    split at taken
    · rename_i now previous loaded
      have again := held.become thread .idle trivial
      split at taken
      · cases taken
        exact again
      · rename_i word follows
        split at taken
        · cases taken
          exact again
        · rename_i won
          cases taken
          have current : generator.state = previous := by
            by_contra different
            exact won (.inr different)
          have bound := held.early thread
          rw [loaded] at bound
          obtain ⟨above, within⟩ := following_above bound (current ▸ held.bounded) follows
          have ordered : (generator.past ++ [generator.state] ++ [word]).Pairwise
              fun first second => first.toNat < second.toNat := by
            refine List.pairwise_append.mpr ⟨held.words, List.pairwise_singleton _ _, ?_⟩
            intro earlier member later same
            rw [List.mem_singleton.mp same]
            rcases List.mem_append.mp member with before | last
            · have below := (List.pairwise_append.mp held.words).2.2 earlier before generator.state
                (List.mem_singleton_self _)
              rw [current] at below
              exact Nat.lt_trans below above
            · rw [List.mem_singleton.mp last, current]
              exact above
          refine ⟨held.node, again.early, within, ordered, ?_⟩
          have nonempty : 1 ≤ (generator.past ++ [generator.state]).length := by simp
          change generator.ids ++ [idOf generator.node word] =
            ((generator.past ++ [generator.state] ++ [word]).drop 1).map (idOf generator.node)
          rw [List.drop_append_of_le_length nonempty, List.map_append, ← held.minted]
          rfl
    · cases taken

theorem Invariant.sorted {generator : IdGenerator} (held : Invariant generator) :
    Sorted generator := by
  have below : ∀ word ∈ generator.past ++ [generator.state], word.toNat < 2 ^ 53 := by
    intro word member
    rcases List.mem_append.mp member with before | last
    · have above := (List.pairwise_append.mp held.words).2.2 word before generator.state
        (List.mem_singleton_self _)
      exact Nat.lt_trans above held.bounded
    · rw [List.mem_singleton.mp last]
      exact held.bounded
  have minted : ∀ word ∈ (generator.past ++ [generator.state]).drop 1, word.toNat < 2 ^ 53 :=
    fun word member => below word (List.mem_of_mem_drop member)
  have increasing : generator.ids.Pairwise (· < ·) := by
    rw [held.minted, List.pairwise_map]
    refine List.Pairwise.imp_of_mem ?_ (held.words.sublist (List.drop_sublist 1 _))
    intro first second early late less
    rw [idOf_eq held.node (minted first early), idOf_eq held.node (minted second late)]
    have node := held.node
    omega
  refine ⟨increasing, increasing.imp Int.ne_of_lt, ?_⟩
  rw [held.minted]
  intro id member
  obtain ⟨word, known, same⟩ := List.mem_map.mp member
  rw [← same, idOf_eq held.node (minted word known)]
  exact Int.natCast_nonneg _

/-- Ids are distinct, not negative and strictly increasing in the order of the exchanges,
whatever the clock says and however the threads interleave. -/
theorem ids_are_unique_and_ordered (node : UInt16) (actions : List Action) :
    Meets step Early (IdGenerator.new node) actions →
      Always step Sorted (IdGenerator.new node) actions :=
  fun met => always_of_meets (fun _ held => Invariant.sorted held)
    (fun _ _ _ held early taken => invariant_step held early taken) (invariant_new node) met

/-- Two threads read a clock that stands still, and the second loads the word before the first
exchanges it. -/
def race : List Action :=
  [.readClock 0 (some (epochMs + 5)), .readClock 1 (some (epochMs + 5)), .load 0 0, .load 1 0,
    .exchange 0 false, .exchange 1 false, .readClock 1 (some (epochMs + 4)), .load 1 0,
    .exchange 1 false]

theorem race_is_sorted : Always step Sorted (IdGenerator.new 7) race := by
  have early (later : Nat) (soon : later < 10) :
      (millisecondsSinceEpoch (some (epochMs + later))).toNat < 2 ^ 41 := by
    revert later
    decide
  exact ids_are_unique_and_ordered 7 race <|
    meets_cons rfl (early 5 (by decide)) <| meets_cons rfl (early 5 (by decide)) <|
    meets_cons rfl trivial <| meets_cons rfl trivial <| meets_cons rfl trivial <|
    meets_cons rfl trivial <| meets_cons rfl (early 4 (by decide)) <| meets_cons rfl trivial <|
    meets_cons rfl trivial trivial

end MeteredUsage.Ids

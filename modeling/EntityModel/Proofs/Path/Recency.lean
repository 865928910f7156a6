import EntityModel.Proofs.Path.Shared
import Mathlib.Data.Finset.Card

/-!
# What is remembered of a log

A cache is written to and used over time. What was written or used is a log, the latest first. The
keys of a log in the order of their last use are its recency (`RecentCache.recency`), and a cache
holds the front of it that there is room for (`RecentCache.Recalls`), since a use moves an entry to
the front just as a write does (`RecentCache.use?_eq_put`). So a key is still known exactly if fewer
other keys than there is room for were used after it (`RecentCache.Recalls.use?_of_latest`).
-/

namespace EntityModel.RecentCache

variable {κ α : Type} {log since newer : List (κ × α)} {cache cache' : RecentCache κ α} {key : κ}
  {value : α}

/-- The latest entry of a key in a log, and the entries that are later. -/
structure Latest (log : List (κ × α)) (key : κ) (value : α) (since : List (κ × α)) : Prop where
  split : ∃ before, log = since ++ (key, value) :: before
  others : ∀ e ∈ since, e.1 ≠ key

/-- The latest entry is in the log. -/
lemma Latest.mem (h : Latest log key value since) : (key, value) ∈ log := by
  obtain ⟨before, rfl⟩ := h.split
  exact List.mem_append_right _ List.mem_cons_self

/-- A key has one latest entry at most. -/
lemma Latest.unique {value' : α} {since' : List (κ × α)} (h : Latest log key value since)
    (h' : Latest log key value' since') : value = value' ∧ since = since' := by
  obtain ⟨⟨before, rfl⟩, others⟩ := h
  obtain ⟨⟨before', split⟩, others'⟩ := h'
  induction since generalizing since' with
  | nil =>
    cases since' with
    | nil =>
      cases split
      exact ⟨rfl, rfl⟩
    -- the latest entry of the one would be a later entry of the key for the other
    | cons e' since' =>
      cases split
      exact absurd rfl (others' _ List.mem_cons_self)
  | cons e since ih =>
    cases since' with
    | nil =>
      cases split
      exact absurd rfl (others _ List.mem_cons_self)
    | cons e' since' =>
      obtain ⟨rfl, rest⟩ := List.cons.inj split
      obtain ⟨same, rfl⟩ := ih (List.forall_mem_cons.mp others).2
        (List.forall_mem_cons.mp others').2 rest
      exact ⟨same, rfl⟩

variable [DecidableEq κ]

/-- The keys of entries, each of them once. -/
def keys (entries : List (κ × α)) : Finset κ :=
  (entries.map Prod.fst).toFinset

/-- A key is among the keys exactly if an entry has it. -/
lemma mem_keys {entries : List (κ × α)} : key ∈ keys entries ↔ ∃ e ∈ entries, e.1 = key := by
  rw [keys, List.mem_toFinset, List.mem_map]

/-- One more entry adds its key. -/
lemma keys_cons (e : κ × α) (entries : List (κ × α)) :
    keys (e :: entries) = insert e.1 (keys entries) := by
  rw [keys, List.map_cons, List.toFinset_cons, keys]

/-- Every key of a log has a latest entry. -/
lemma exists_latest (h : key ∈ keys log) : ∃ value since, Latest log key value since := by
  induction log with
  | nil => cases h
  | cons e log ih =>
    by_cases first : e.1 = key
    · exact ⟨e.2, [], ⟨log, by rw [← first, List.nil_append]⟩, nofun⟩
    · rw [keys_cons, Finset.mem_insert] at h
      obtain ⟨value, since, ⟨before, rfl⟩, others⟩ := ih (h.resolve_left (Ne.symm first))
      exact ⟨value, e :: since, ⟨before, rfl⟩, List.forall_mem_cons.mpr ⟨first, others⟩⟩

/-! ### Recency -/

/-- The latest entry of every key of a log, in the order of their last use. -/
def recency : List (κ × α) → List (κ × α)
  | [] => []
  | e :: log => e :: without (recency log) e.1

/-- There is nothing to take out if no entry has the key. -/
lemma without_of_others {entries : List (κ × α)} (others : ∀ e ∈ entries, e.1 ≠ key) :
    without entries key = entries :=
  List.filter_eq_self.mpr fun e he => decide_eq_true (others e he)

/-- A key is taken out of both halves. -/
lemma without_append (entries more : List (κ × α)) (key : κ) :
    without (entries ++ more) key = without entries key ++ without more key :=
  List.filter_append ..

/-- The first entry is taken out if it has the key. -/
lemma without_cons_self (value : α) (entries : List (κ × α)) :
    without ((key, value) :: entries) key = without entries key :=
  List.filter_cons_of_neg (by simp)

/-- The first entry stays if it has another key. -/
lemma without_cons_of_ne {e : κ × α} (other : e.1 ≠ key) (entries : List (κ × α)) :
    without (e :: entries) key = e :: without entries key :=
  List.filter_cons_of_pos (by simpa using other)

/-- Taking out a key changes no other keys. -/
lemma insert_keys_without (entries : List (κ × α)) (key : κ) :
    insert key (keys (without entries key)) = insert key (keys entries) := by
  ext k
  simp only [Finset.mem_insert, mem_keys, without, List.mem_filter, decide_eq_true_eq]
  constructor
  · rintro (same | ⟨e, ⟨listed, -⟩, rfl⟩)
    · exact .inl same
    · exact .inr ⟨e, listed, rfl⟩
  · rintro (same | ⟨e, listed, rfl⟩)
    · exact .inl same
    · exact or_iff_not_imp_left.mpr fun other => ⟨e, ⟨listed, other⟩, rfl⟩

/-- Every key of a log has an entry in its recency. -/
lemma keys_recency (log : List (κ × α)) : keys (recency log) = keys log := by
  induction log with
  | nil => rfl
  | cons e log ih => rw [recency, keys_cons, insert_keys_without, ih, keys_cons]

/-- The recency consists of entries of the log. -/
lemma mem_of_mem_recency {e : κ × α} (h : e ∈ recency log) : e ∈ log := by
  induction log with
  | nil => cases h
  | cons e' log ih =>
    rcases List.mem_cons.mp h with rfl | h
    · exact List.mem_cons_self
    · exact List.mem_cons_of_mem _ (ih (mem_of_mem_without h))

/-- The recency has one entry for each key. -/
lemma recency_pairwise (log : List (κ × α)) :
    (recency log).Pairwise fun e e' => e.1 ≠ e'.1 := by
  induction log with
  | nil => exact .nil
  | cons e log ih =>
    refine .cons (fun e' he' => ?_) (ih.filter _)
    exact Ne.symm (of_decide_eq_true (List.mem_filter.mp he').2)

/-- The latest entry of a key is in the recency behind one entry for each key that is used later. -/
lemma Latest.exists_recency_eq (h : Latest log key value since) : ∃ newer older,
    recency log = newer ++ (key, value) :: older ∧ keys newer = keys since ∧
      ∀ e ∈ newer, e.1 ≠ key := by
  obtain ⟨⟨before, rfl⟩, others⟩ := h
  induction since with
  | nil => exact ⟨[], _, rfl, rfl, nofun⟩
  | cons e since ih =>
    obtain ⟨other, others⟩ := List.forall_mem_cons.mp others
    obtain ⟨newer, older, recency_eq, keys_eq, apart⟩ := ih others
    refine ⟨e :: without newer e.1, without older e.1, ?_, ?_, ?_⟩
    · rw [List.cons_append, recency, recency_eq, without_append, List.cons_append,
        without_cons_of_ne (Ne.symm other)]
    · rw [keys_cons, keys_cons, insert_keys_without, keys_eq]
    · refine List.forall_mem_cons.mpr ⟨other, fun e' he' => ?_⟩
      exact apart e' (mem_of_mem_without he')

/-! ### What is remembered -/

/-- Nothing is found among entries of other keys. -/
lemma find?_of_others {entries : List (κ × α)} (others : ∀ e ∈ entries, e.1 ≠ key) :
    entries.find? (fun e => e.1 = key) = none :=
  List.find?_eq_none.mpr fun e he => by simpa using others e he

/-- Behind other keys an entry is among the first ones exactly if there are fewer before it. -/
lemma find?_take (others : ∀ e ∈ newer, e.1 ≠ key) (value : α) (older : List (κ × α)) (n : Nat) :
    ((newer ++ (key, value) :: older).take n).find? (fun e => e.1 = key) =
      if newer.length < n then some (key, value) else none := by
  rw [List.take_append, List.find?_append,
    find?_of_others fun e he => others e (List.mem_of_mem_take he), Option.none_or]
  split
  · rename_i enough
    obtain ⟨room, room_eq⟩ := Nat.exists_eq_add_of_lt enough
    rw [show n - newer.length = room + 1 by omega, List.take_succ_cons]
    exact List.find?_cons_of_pos (decide_eq_true rfl)
  · rename_i few
    rw [Nat.sub_eq_zero_of_le (Nat.le_of_not_lt few), List.take_zero, List.find?_nil]

/-- To take out a key from the entries there is room for leaves those there is room for without the
key, but the last one of them. -/
lemma take_without (entries : List (κ × α)) (distinct : entries.Pairwise fun e e' => e.1 ≠ e'.1)
    (key : κ) (n : Nat) :
    (without (entries.take (n + 1)) key).take n = (without entries key).take n := by
  induction entries generalizing n with
  | nil => rfl
  | cons e entries ih =>
    obtain ⟨first, distinct⟩ := List.pairwise_cons.mp distinct
    rw [List.take_succ_cons]
    by_cases same : e.1 = key
    · subst same
      have others : ∀ e' ∈ entries, e'.1 ≠ e.1 := fun e' he' => (first e' he').symm
      rw [without_cons_self e.2, without_cons_self e.2, without_of_others others,
        without_of_others fun e' he' => others e' (List.mem_of_mem_take he'), List.take_take,
        Nat.min_self]
    · rw [without_cons_of_ne same, without_cons_of_ne same]
      cases n with
      | zero => rfl
      | succ n => rw [List.take_succ_cons, List.take_succ_cons, ih distinct]

/-- The entries are the most recent ones of a log, as many as there is room for. -/
def Recalls (cache : RecentCache κ α) (log : List (κ × α)) : Prop :=
  cache.entries = (recency log).take (max 1 cache.capacity)

/-- A use leaves the cache as the same write would leave it. -/
lemma use?_eq_put (bounded : cache.IsBounded) (h : cache.use? key = some (value, cache')) :
    cache' = cache.put key value := by
  have unmoved := bounded.use? h
  unfold use? at h
  split at h
  · rename_i e found
    have same := List.find?_some found
    rw [decide_eq_true_eq] at same
    subst same
    cases h
    unfold put
    rw [List.take_of_length_le]
    exact unmoved
  · cases h

namespace Recalls

/-- An empty cache recalls the empty log. -/
lemma nil (h : cache.entries = []) : cache.Recalls [] := by
  rw [Recalls, h, recency, List.take_nil]

/-- What recalls a log is not more than there is room for. -/
lemma isBounded (recalls : cache.Recalls log) : cache.IsBounded := by
  rw [IsBounded, recalls]
  exact List.length_take_le _ _

/-- A write is recalled as the latest entry. -/
lemma put (recalls : cache.Recalls log) (key : κ) (value : α) :
    (cache.put key value).Recalls ((key, value) :: log) := by
  obtain ⟨n, room⟩ : ∃ n, max 1 cache.capacity = n + 1 :=
    Nat.exists_eq_add_one.mpr (Nat.lt_of_lt_of_le Nat.one_pos (Nat.le_max_left _ _))
  unfold Recalls RecentCache.put
  dsimp only
  rw [recalls, room, recency, List.take_succ_cons, List.take_succ_cons,
    take_without _ (recency_pairwise log)]

/-- A key that was used is known as long as fewer other keys than there is room for were used since.
-/
lemma use?_of_latest (recalls : cache.Recalls log) (latest : Latest log key value since) :
    cache.use? key = if (keys since).card < max 1 cache.capacity
      then some (value, cache.put key value) else none := by
  obtain ⟨newer, older, recency_eq, keys_eq, others⟩ := latest.exists_recency_eq
  -- an entry for each key that was used since stands in front, and each of them once
  have length_eq : newer.length = (keys since).card := by
    have distinct := recency_pairwise log
    rw [recency_eq] at distinct
    have nodup : (newer.map Prod.fst).Nodup :=
      List.pairwise_map.mpr (List.pairwise_append.mp distinct).1
    rw [← keys_eq, keys, List.toFinset_card_of_nodup nodup, List.length_map]
  have found := find?_take others value older (max 1 cache.capacity)
  rw [← recency_eq, ← recalls, length_eq] at found
  split at found
  · rename_i enough
    have hit : cache.use? key =
        some (value, { cache with entries := (key, value) :: without cache.entries key }) := by
      unfold use?
      rw [found]
    rw [if_pos enough, hit, ← use?_eq_put recalls.isBounded hit]
  · rename_i many
    rw [if_neg many]
    unfold use?
    rw [found]

/-- A key that was never used is not known. -/
lemma use?_of_unused (recalls : cache.Recalls log) (unused : key ∉ keys log) :
    cache.use? key = none := by
  have others : ∀ e ∈ cache.entries, e.1 ≠ key := by
    intro e he same
    rw [recalls] at he
    apply unused
    rw [← keys_recency]
    exact mem_keys.mpr ⟨e, List.mem_of_mem_take he, same⟩
  unfold use?
  rw [find?_of_others others]

end Recalls

end EntityModel.RecentCache

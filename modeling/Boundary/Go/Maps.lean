import Mathlib.Data.List.AList

/-!
# Go maps as association lists

A Go map is modelled by a Mathlib `AList`. Go leaves the iteration order of a
map unspecified, so the statements here are about `lookup` and membership,
which is how Go code observes a map, and never about the order of the entries.
-/

namespace GoMap

variable {α β σ : Type*} [DecidableEq α]

/-- `if m[k] == nil { m[k] = v }`, for a map whose values are never nil. -/
def setIfAbsent (m : AList fun _ : α => β) (k : α) (v : β) : AList fun _ : α => β :=
  if k ∈ m then m else m.insert k v

/-- `for _, k := range ks { delete(m, k) }`. -/
def deleteAll (m : AList fun _ : α => β) (ks : List α) : AList fun _ : α => β :=
  ks.foldl (fun m k => m.erase k) m

section SetIfAbsent

variable {m : AList fun _ : α => β} {k k' : α} {v : β}

theorem setIfAbsent_of_mem (hk : k ∈ m) : setIfAbsent m k v = m := if_pos hk

theorem setIfAbsent_of_not_mem (hk : k ∉ m) : setIfAbsent m k v = m.insert k v := if_neg hk

@[simp] theorem mem_setIfAbsent : k' ∈ setIfAbsent m k v ↔ k' = k ∨ k' ∈ m := by
  unfold setIfAbsent
  split
  · constructor
    · exact .inr
    · rintro (rfl | h) <;> assumption
  · exact AList.mem_insert m

theorem lookup_setIfAbsent_of_not_mem (hk : k ∉ m) :
    (setIfAbsent m k v).lookup k' = if k' = k then some v else m.lookup k' := by
  rw [setIfAbsent_of_not_mem hk]
  split
  · subst k'
    exact AList.lookup_insert m
  · exact AList.lookup_insert_ne ‹_›

end SetIfAbsent

/-- Setting, one after another, the entries of a list whose keys are distinct and
absent from the map: afterwards each key of the list maps to its element's
value, and every other key to what it mapped to before. -/
theorem lookup_foldl_setIfAbsent (key : σ → α) (val : σ → β) (l : List σ)
    (m : AList fun _ : α => β) (hnodup : (l.map key).Nodup) (hfresh : ∀ x ∈ l, key x ∉ m)
    (k : α) (v : β) :
    (l.foldl (fun m x => setIfAbsent m (key x) (val x)) m).lookup k = some v ↔
      m.lookup k = some v ∨ ∃ x ∈ l, key x = k ∧ val x = v := by
  induction l generalizing m with
  | nil => simp
  | cons x xs ih =>
    rw [List.map_cons, List.nodup_cons] at hnodup
    have hx : key x ∉ m := hfresh x List.mem_cons_self
    -- the keys still to come are absent from the map after this one is set
    have hfresh' : ∀ y ∈ xs, key y ∉ setIfAbsent m (key x) (val x) := by
      intro y hy
      rw [mem_setIfAbsent, not_or]
      exact ⟨fun h => hnodup.1 (h ▸ List.mem_map_of_mem hy), hfresh y (List.mem_cons_of_mem x hy)⟩
    rw [List.foldl_cons, ih _ hnodup.2 hfresh', lookup_setIfAbsent_of_not_mem hx]
    by_cases hk : k = key x
    · subst hk
      have hnone : m.lookup (key x) = none := AList.lookup_eq_none.mpr hx
      simp only [if_true, Option.some.injEq, hnone, reduceCtorEq, false_or, List.mem_cons,
        exists_eq_or_imp, true_and]
    · simp only [hk, if_false, List.mem_cons, exists_eq_or_imp, Ne.symm hk, false_and, false_or]

theorem mem_foldl_setIfAbsent (key : σ → α) (val : σ → β) (l : List σ)
    (m : AList fun _ : α => β) (k : α) :
    k ∈ l.foldl (fun m x => setIfAbsent m (key x) (val x)) m ↔ k ∈ m ∨ ∃ x ∈ l, key x = k := by
  induction l generalizing m with
  | nil => simp
  | cons x xs ih =>
    rw [List.foldl_cons, ih, mem_setIfAbsent]
    simp only [List.mem_cons, exists_eq_or_imp]
    constructor
    · rintro ((h | h) | h)
      · exact .inr (.inl h.symm)
      · exact .inl h
      · exact .inr (.inr h)
    · rintro (h | h | h)
      · exact .inl (.inr h)
      · exact .inl (.inl h.symm)
      · exact .inr h

theorem lookup_deleteAll (m : AList fun _ : α => β) (ks : List α) (k : α) :
    (deleteAll m ks).lookup k = if k ∈ ks then none else m.lookup k := by
  induction ks generalizing m with
  | nil => simp [deleteAll]
  | cons k' ks ih =>
    simp only [deleteAll, List.foldl_cons] at ih ⊢
    rw [ih]
    by_cases hk : k = k'
    · subst hk
      simp [AList.lookup_erase]
    · simp [hk, AList.lookup_erase_ne hk]

/-- Deleting the key of every entry that fails a test keeps exactly the entries
that pass it: the pattern of collecting keys while ranging over a map and
deleting them afterwards. -/
theorem lookup_deleteAll_filter (p : α → β → Bool) (m : AList fun _ : α => β) (k : α) (v : β) :
    (deleteAll m ((m.entries.filter fun e => !p e.1 e.2).map Sigma.fst)).lookup k = some v ↔
      m.lookup k = some v ∧ p k v = true := by
  rw [lookup_deleteAll]
  constructor
  · intro h
    split at h
    · cases h
    · rename_i hdel
      refine ⟨h, ?_⟩
      by_contra hp
      apply hdel
      refine List.mem_map.mpr ⟨⟨k, v⟩, List.mem_filter.mpr ⟨AList.mem_lookup_iff.mp h, ?_⟩, rfl⟩
      simpa using hp
  · rintro ⟨h, hp⟩
    rw [if_neg]
    · exact h
    · intro hdel
      obtain ⟨⟨k', v'⟩, hmem, rfl⟩ := List.mem_map.mp hdel
      rw [List.mem_filter] at hmem
      have hv : v' = v := by
        have h' := AList.mem_lookup_iff.mpr hmem.1
        rw [h] at h'
        exact (Option.some.inj h').symm
      subst hv
      simp [hp] at hmem

/-- `m[k] = append(m[k], v)`. -/
def appendAt (m : AList fun _ : α => List β) (k : α) (v : β) : AList fun _ : α => List β :=
  m.insert k ((m.lookup k).getD [] ++ [v])

theorem getD_lookup_appendAt (m : AList fun _ : α => List β) (k k' : α) (v : β) :
    ((appendAt m k v).lookup k').getD [] = (m.lookup k').getD [] ++ if k' = k then [v] else [] := by
  unfold appendAt
  by_cases h : k' = k
  · subst h
    simp [AList.lookup_insert]
  · simp [AList.lookup_insert_ne h, h]

/-- `for _, x := range l { m[key(x)] = append(m[key(x)], val(x)) }`: under a
key, the values of the elements of that key in order. -/
theorem getD_lookup_foldl_appendAt_key (key : σ → α) (val : σ → β) (l : List σ)
    (m : AList fun _ : α => List β) (k : α) :
    ((l.foldl (fun m x => appendAt m (key x) (val x)) m).lookup k).getD [] =
      (m.lookup k).getD [] ++ (l.filter fun x => key x = k).map val := by
  induction l generalizing m with
  | nil => simp
  | cons x l ih =>
    rw [List.foldl_cons, ih, getD_lookup_appendAt, List.append_assoc, List.filter_cons]
    by_cases h : key x = k
    · simp [h]
    · simp [h, Ne.symm h]

/-- `for _, x := range l { m[key(x)] = val(x) }`: the last element written under a
key gives its value, and a key no element is written under keeps its value. -/
theorem lookup_foldl_insert (key : σ → α) (val : σ → β) (l : List σ)
    (m : AList fun _ : α => β) (k : α) :
    (l.foldl (fun m x => m.insert (key x) (val x)) m).lookup k =
      ((l.reverse.find? fun x => key x = k).map val).or (m.lookup k) := by
  induction l generalizing m with
  | nil => simp
  | cons x xs ih =>
    rw [List.foldl_cons, ih, List.reverse_cons, List.find?_append]
    by_cases hk : key x = k
    · subst hk
      cases xs.reverse.find? fun y => key y = key x <;> simp [AList.lookup_insert]
    · rw [AList.lookup_insert_ne (Ne.symm hk)]
      cases xs.reverse.find? fun y => key y = key x <;> simp [hk]

/-- The last write wins: a loop each of whose iterations either sets a key to a
value of its own or leaves the key alone ends with the value the last iteration
that sets the key gives it, or with the key's value before the loop. -/
theorem lookup_foldl_of_step (step : (AList fun _ : α => β) → σ → AList fun _ : α => β)
    (sets : σ → Prop) [DecidablePred sets] (val : σ → β) (k : α) :
    ∀ (l : List σ) (m : AList fun _ : α => β),
      (∀ m, ∀ x ∈ l, (step m x).lookup k = if sets x then some (val x) else m.lookup k) →
      (l.foldl step m).lookup k = ((l.reverse.find? fun x => decide (sets x)).map val).or (m.lookup k)
  | [], _, _ => by simp
  | x :: xs, m, hstep => by
    rw [List.foldl_cons, lookup_foldl_of_step step sets val k xs _
      fun m y hy => hstep m y (List.mem_cons_of_mem x hy), hstep m x List.mem_cons_self,
      List.reverse_cons, List.find?_append]
    by_cases hx : sets x <;> cases xs.reverse.find? fun x => decide (sets x) <;> simp [hx]

/-- A loop of writes all of which give a key one value sets the key to it when
one of them writes the key, and leaves the key alone otherwise. -/
theorem lookup_foldl_insert_of_forall (key : σ → α) (val : σ → β) (l : List σ)
    (m : AList fun _ : α => β) (k : α) (v : β) (hv : ∀ x ∈ l, key x = k → val x = v) :
    (l.foldl (fun m x => m.insert (key x) (val x)) m).lookup k =
      if ∃ x ∈ l, key x = k then some v else m.lookup k := by
  rw [lookup_foldl_insert]
  split_ifs with hk
  · obtain ⟨x, hx, hkx⟩ := hk
    have hsome : (l.reverse.find? fun x => key x = k).isSome :=
      List.find?_isSome.mpr ⟨x, List.mem_reverse.mpr hx, decide_eq_true hkx⟩
    obtain ⟨y, hy⟩ := Option.isSome_iff_exists.mp hsome
    have hyl : y ∈ l := List.mem_reverse.mp (List.mem_of_find?_eq_some hy)
    have hky : key y = k := by simpa using List.find?_some hy
    rw [hy, Option.map_some, hv y hyl hky, Option.some_or]
  · have hnone : (l.reverse.find? fun x => key x = k) = none :=
      List.find?_eq_none.mpr fun x hx hkx => hk ⟨x, List.mem_reverse.mp hx, of_decide_eq_true hkx⟩
    rw [hnone, Option.map_none, Option.none_or]

theorem mem_foldl_insert (key : σ → α) (val : σ → β) (l : List σ) (m : AList fun _ : α => β)
    (k : α) : k ∈ l.foldl (fun m x => m.insert (key x) (val x)) m ↔ k ∈ m ∨ ∃ x ∈ l, key x = k := by
  rw [← AList.lookup_isSome, lookup_foldl_insert, ← AList.lookup_isSome]
  simp [Option.isSome_or, List.find?_isSome, or_comm]

/-- A filter of a list without duplicates that only one of its elements passes. -/
theorem filter_eq_singleton {l : List σ} {p : σ → Bool} {x : σ} (hnodup : l.Nodup) (hx : x ∈ l)
    (hpx : p x) (huniq : ∀ y ∈ l, p y → y = x) : l.filter p = [x] := by
  have hall : ∀ y ∈ l.filter p, y = x := fun y hy => huniq y (List.mem_filter.mp hy).1
    (List.mem_filter.mp hy).2
  have hrep := List.eq_replicate_iff.mpr ⟨rfl, hall⟩
  have hnd := hnodup.filter p
  have hpos : 0 < (l.filter p).length := List.length_pos_of_mem (List.mem_filter.mpr ⟨hx, hpx⟩)
  rw [hrep] at hnd
  have hle := List.nodup_replicate.mp hnd
  rw [hrep, show (l.filter p).length = 1 by omega]
  rfl

/-- Ranging over a map's values, the values that pass a test that only the value
under one key passes are that value alone. -/
theorem filter_values_eq_singleton (m : AList fun _ : α => β) (p : β → Bool) {k : α} {v : β}
    (hk : m.lookup k = some v) (hp : p v)
    (huniq : ∀ k' v', m.lookup k' = some v' → p v' → k' = k) :
    (m.entries.map Sigma.snd).filter p = [v] := by
  have hentry : (⟨k, v⟩ : Sigma fun _ : α => β) ∈ m.entries := AList.mem_lookup_iff.mp hk
  have huniq' : ∀ e ∈ m.entries, (p ∘ Sigma.snd) e → e = ⟨k, v⟩ := by
    rintro ⟨k', v'⟩ he hpe
    have hk' : m.lookup k' = some v' := AList.mem_lookup_iff.mpr he
    obtain rfl := huniq k' v' hk' hpe
    rw [hk] at hk'
    cases hk'
    rfl
  rw [List.filter_map, filter_eq_singleton m.nodupKeys.nodup hentry hp huniq']
  rfl

end GoMap

import Boundary.Pagination.InitialPhase

/-!
# Filling one page

The unexported `list` over a store with distinct ids, read from its start, with
a filter that never fails: it answers the first `pageSize` items that pass the
filter, completes the listing when no more are left, and calls the store at
most once per `pageSize + 1` items and once more. The fuel of `dbLoop` counts
those calls, so the loop returning within a fuel is the bound on the calls.

Its time is the first listing's that is not the zero time (`firstListTime` is
set while it is zero): the first call's unless that one answered the zero time.
-/

namespace Boundary.Pagination

open ListToken GoControl

variable {T : Type} [Resource T]

/-- The unexported `list` over a store with distinct ids read from its start
answers the first `pageSize` items of the store that pass the filter and
completes the listing when no more are left, within `⌈|S| / (pageSize + 1)⌉ + 1`
calls of the store; its time is the first call's when that is not zero. -/
theorem fetchItems_fill {S : List T} {listItemsFn : ListItemsFunc T} {time : Option T → Nat → Time}
    (hstore : ∀ lastItem limit, listItemsFn lastItem limit =
      .ok ((itemsAfter S (lastItem.map Resource.publicId)).take limit, time lastItem limit))
    (hnodup : (S.map Resource.publicId).Nodup) (f : T → Bool) (pageSize fuel : Nat)
    (hfuel : (S.length + pageSize) / (pageSize + 1) + 1 ≤ fuel) :
    ∃ t, (time none (pageSize + 1) ≠ 0 → t = time none (pageSize + 1)) ∧
      fetchItems pageSize (fun x => .ok (f x)) listItemsFn fuel =
        some (.ok ((S.filter f).take pageSize, decide ((S.filter f).length ≤ pageSize), t)) := by
  have hreads : ∀ lastItem limit, listItemsFn lastItem limit =
      .ok ((itemsAfter S ((lastItem.map Resource.publicId).or none)).take limit,
        time lastItem limit) := by
    intro lastItem limit
    rw [Option.or_none]
    exact hstore lastItem limit
  have hcalls : (itemsAfter S (((none : Option T).map Resource.publicId).or none)).length / (pageSize + 1) <
      fuel := by
    have hle : S.length / (pageSize + 1) ≤ (S.length + pageSize) / (pageSize + 1) :=
      Nat.div_le_div_right (Nat.le_add_right _ _)
    simp only [Option.map_none, Option.or_none, itemsAfter]
    omega
  obtain ⟨t, htime, hloop⟩ :=
    dbLoop_fill hreads hnodup f (pageSize + 1) (Nat.succ_pos _) fuel none 0 [] (by simp) hcalls
  refine ⟨t, fun h => htime (by rwa [if_pos rfl]), ?_⟩
  simp only [Option.map_none, Option.or_none, itemsAfter, List.nil_append] at hloop
  simp only [fetchItems, hloop, Option.map_some, map_ok, List.length_take]
  -- the over-fetched item only tells whether the listing is complete
  by_cases hc : (S.filter f).length ≤ pageSize
  · have hkeep : (S.filter f).take (pageSize + 1) = S.filter f := List.take_of_length_le (by omega)
    simp [hc, hkeep, List.take_of_length_le hc]
  · simp [hc, List.take_take]

/-- A store of the sample targets whose first call answers at the zero time and
the later ones at time 5. -/
def lateClockStore : ListItemsFunc Item := fun lastItem limit =>
  .ok ((itemsAfter sampleTargets (lastItem.map Resource.publicId)).take limit,
    if lastItem = none then 0 else 5)

theorem fetchItems_late_clock :
    lateClockStore none 2 = .ok (sampleTargets.take 2, 0) ∧
      fetchItems 1 (fun _ => .ok false) lateClockStore 2 = some (.ok ([], true, 5)) :=
  ⟨rfl, rfl⟩

end Boundary.Pagination

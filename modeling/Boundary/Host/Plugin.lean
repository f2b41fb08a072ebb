import Mathlib.Data.Finset.Basic
import Mathlib.Data.List.Sort
import Boundary.Errors
import Boundary.Go.Maps
import Boundary.Go.Control

/-!
# Hosts of a plugin host catalog

The set sync job lists a plugin catalog's hosts through its plugin and diffs
them against the hosts stored. `createNewHostMap` makes the host of each answer
of the plugin, marks it dirty when it is new or its name, description or
external name changed, and diffs its IP addresses and its DNS names against the
stored host's; `getSetChanges` diffs the set memberships of the hosts.

Go maps are `AList`s. A `valueToInterfaceMap` of addresses is the set of its
keys, its values being the address objects made from the keys, and `none`
while it is nil.
-/

namespace Boundary.HostPlugin

open GoMap

variable (x : Externals)

/-- A `valueToInterfaceMap`: the set of its keys, `none` while it is nil. -/
abbrev ValueMap := Option (Finset String)

/-- The keys of the map. -/
def ValueMap.keys : ValueMap → Finset String
  | some m => m
  | none => ∅

/-- `m[k] = v`, after `if m == nil { m = make(...) }`. -/
def ValueMap.set (m : ValueMap) (k : String) : ValueMap := some (insert k m.keys)

/-- `delete(m, k)`, and `m = nil` once it is empty. -/
def ValueMap.delete (m : ValueMap) (k : String) : ValueMap :=
  if m.keys.erase k = ∅ then none else some (m.keys.erase k)

@[simp] theorem ValueMap.keys_set (m : ValueMap) (k : String) : (m.set k).keys = insert k m.keys :=
  rfl

@[simp] theorem ValueMap.keys_delete (m : ValueMap) (k : String) :
    (m.delete k).keys = m.keys.erase k := by
  unfold ValueMap.delete
  split
  · rename_i h
    rw [h]
    rfl
  · rfl

section Diff

open GoControl

variable {newValue : String → Except Error Unit}

/-- What the loop of the additions keeps, after the new values `done`, from
removals that held the current values. -/
structure AdditionsInv (current : Finset String) (done : List String) (toRemove toAdd : ValueMap) :
    Prop where
  removes : toRemove.keys = current \ done.toFinset
  adds_new : done.toFinset \ current ⊆ toAdd.keys
  adds_done : toAdd.keys ⊆ done.toFinset
  adds_exact : done.Nodup → toAdd.keys = done.toFinset \ current

/-- A new value still among the removals is taken out of them. -/
theorem AdditionsInv.delete {current : Finset String} {done : List String} {toRemove toAdd : ValueMap}
    {v : String} (hinv : AdditionsInv current done toRemove toAdd) (hv : v ∈ toRemove.keys) :
    AdditionsInv current (done ++ [v]) (toRemove.delete v) toAdd := by
  rw [hinv.removes, Finset.mem_sdiff] at hv
  have hdone : (done ++ [v]).toFinset = insert v done.toFinset := by
    rw [List.toFinset_append, Finset.union_comm]
    rfl
  refine ⟨?_, ?_, ?_, fun hnodup => ?_⟩
  · rw [ValueMap.keys_delete, hinv.removes, hdone, Finset.sdiff_insert]
  · rw [hdone, Finset.insert_sdiff_of_mem _ hv.1]
    exact hinv.adds_new
  · rw [hdone]
    exact hinv.adds_done.trans (Finset.subset_insert _ _)
  · rw [hdone, Finset.insert_sdiff_of_mem _ hv.1]
    exact hinv.adds_exact (hnodup.sublist (List.sublist_append_left _ _))

/-- Any other new value is added. -/
theorem AdditionsInv.set {current : Finset String} {done : List String} {toRemove toAdd : ValueMap}
    {v : String} (hinv : AdditionsInv current done toRemove toAdd) (hv : v ∉ toRemove.keys) :
    AdditionsInv current (done ++ [v]) toRemove (toAdd.set v) := by
  rw [hinv.removes, Finset.mem_sdiff, not_and, not_not] at hv
  have hdone : (done ++ [v]).toFinset = insert v done.toFinset := by
    rw [List.toFinset_append, Finset.union_comm]
    rfl
  refine ⟨?_, ?_, ?_, fun hnodup => ?_⟩
  · -- a current value among the new ones is already out of the removals
    rw [hinv.removes, hdone]
    ext w
    simp only [Finset.mem_sdiff, Finset.mem_insert, List.mem_toFinset]
    constructor
    · rintro ⟨hw, hwd⟩
      refine ⟨hw, fun h => hwd ?_⟩
      rcases h with rfl | h
      · exact List.mem_toFinset.mp (hv hw)
      · exact h
    · rintro ⟨hw, hwd⟩
      exact ⟨hw, fun h => hwd (.inr h)⟩
  · rw [hdone, ValueMap.keys_set]
    by_cases hc : v ∈ current
    · rw [Finset.insert_sdiff_of_mem _ hc]
      exact hinv.adds_new.trans (Finset.subset_insert _ _)
    · rw [Finset.insert_sdiff_of_notMem _ hc]
      exact Finset.insert_subset_insert _ hinv.adds_new
  · rw [hdone, ValueMap.keys_set]
    exact Finset.insert_subset_insert _ hinv.adds_done
  · have hfresh : v ∉ done := fun hd =>
      List.disjoint_of_nodup_append hnodup hd (List.mem_singleton_self v)
    have hnew : v ∉ current := fun hc => hfresh (List.mem_toFinset.mp (hv hc))
    rw [hdone, ValueMap.keys_set, Finset.insert_sdiff_of_notMem _ hnew,
      hinv.adds_exact (hnodup.sublist (List.sublist_append_left _ _))]

end Diff

/-! ## What the host map is -/

section HostMap

open GoControl

variable {catalog : HostCatalog} {currentHostMap : HostMap}

end HostMap

/-! ## What the membership changes are -/

section Memberships

variable {α β : Type} {sets : α → List String} {otherSets : β → List String}
  {hosts : AList fun _ : String => α} {others : AList fun _ : String => β}

end Memberships

/-! ## The diff of the set sync -/

end Boundary.HostPlugin
